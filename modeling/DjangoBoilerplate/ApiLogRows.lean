import DjangoBoilerplate.Repr
import DjangoBoilerplate.Sanitizers

/-!
# The rows of `api_logs`

`log_outbound` and `log_inbound` build one row for each call they wrap, from what the
call returned or raised. Bodies go through `serialize_body` and headers through
`redact_headers`; an exception is summed up by `build_error_message`
(`apps/core/api_log/error_messages.py`).
-/

namespace DjangoBoilerplate

namespace ApiLog

open LogSanitization Sanitizers

/-! ## Exceptions -/

/-- The `response_body` of an exception. -/
inductive ErrorBody : Type where
  /-- none, or no such attribute -/
  | absent : ErrorBody
  /-- a `dict` -/
  | object : List (Str × Value) → ErrorBody
  /-- a `str` -/
  | text : Str → ErrorBody

/-- What `build_error_message` reads of a `BaseCustomError`. -/
structure CustomError : Type where
  /-- `status_code` -/
  statusCode : Option ℤ
  /-- `get_details()`, which may raise -/
  getDetails : Except Unit (Option (List (Str × Value)))
  /-- `response_body` -/
  responseBody : ErrorBody

/-- An exception. -/
structure Exc : Type where
  /-- the name of its class -/
  typeName : Str
  /-- `str(exc)` -/
  message : Str
  /-- what it has as a `BaseCustomError`, if it is one -/
  custom : Option CustomError

/-- What `get_details()` makes of a response body. -/
def ErrorBody.entry : ErrorBody → Option Value
  | .absent => none
  | .object items => some (.dict items)
  | .text s => some (.str s)

/-- `APIError(message, status_code=..., response_body=..., details=...)`, with the
details it reports. -/
def apiError (message : Str) (statusCode : Option ℤ) (responseBody : ErrorBody)
    (details : List (Str × Value)) : Exc where
  typeName := "APIError".toList
  message := message
  custom := some
    { statusCode := some (statusCode.getD 502)
      getDetails :=
        let out := details
        let out := match responseBody.entry with
          | some v => setItem out "response_body".toList v
          | Option.none => out
        .ok (some (setItem out "status_code".toList (.int (statusCode.getD 502))))
      responseBody := responseBody }

variable (r : Reprs)

/-- The part for the details, `if details`. -/
def detailsPart : Except Unit (Option (List (Str × Value))) → List Str
  | .ok (some (item :: items)) => ["details=".toList ++ (Value.dict (item :: items)).repr r]
  | _ => []

/-- The part for the response body, `if response_body`. -/
def responseBodyPart : ErrorBody → List Str
  | .object (item :: items) => ["response_body=".toList ++ (Value.dict (item :: items)).repr r]
  | .text (c :: s) => ["response_body=".toList ++ c :: s]
  | _ => []

/-- The part for the status code. -/
def statusCodePart : Option ℤ → List Str
  | some n => ["status_code=".toList ++ (toString n).toList]
  | Option.none => []

/-- `build_error_message(exc)`. -/
def buildErrorMessage (exc : Exc) : Str :=
  Str.join " | ".toList
    ((exc.typeName ++ ": ".toList ++ exc.message) ::
      match exc.custom with
      | some e => statusCodePart e.statusCode ++ detailsPart r e.getDetails ++
          responseBodyPart r e.responseBody
      | Option.none => [])

/-! ## Rows -/

/-- The direction of a call. -/
inductive Direction : Type where
  | inbound
  | outbound
  deriving DecidableEq

/-- The `error` column. -/
structure ErrorColumn : Type where
  /-- `"type"` -/
  type : Str
  /-- `"message"` -/
  message : Str

/-- A row of `api_logs`, as `build_row` returns it. -/
structure Row : Type where
  /-- `direction` -/
  direction : Direction
  /-- `service_name` -/
  serviceName : Str
  /-- `request_id` -/
  requestId : Str
  /-- `method` -/
  method : Str
  /-- `url` -/
  url : Str
  /-- `status_code` -/
  statusCode : Option ℤ
  /-- `duration_ms`, by the `repr` of the float -/
  durationMs : Str
  /-- `request_headers` -/
  requestHeaders : List (Str × Str)
  /-- `request_body` -/
  requestBody : Option Str
  /-- `response_headers` -/
  responseHeaders : List (Str × Str)
  /-- `response_body` -/
  responseBody : Option Str
  /-- `error` -/
  error : Option ErrorColumn
  /-- `extra` -/
  extra : List (Str × Value)

/-- What a row depends on beside the call: the settings, the library, the request
id. -/
structure Context : Type where
  /-- `str.lower()` -/
  casing : Casing
  /-- `repr` -/
  reprs : Reprs
  /-- `json.loads` -/
  loads : Str → Option Value
  /-- `bytes.decode("utf-8", errors="replace")` -/
  decode : List UInt8 → Str
  /-- `LOG_SANITIZATION` -/
  sanitization : Config
  /-- `API_LOG_SENSITIVE_HEADERS` -/
  sensitiveHeaders : List Str
  /-- `API_LOG_MAX_BODY_LEN` -/
  maxBodyLen : ℕ
  /-- `_request_id_var` -/
  requestId : Option Str

/-- The keys whose values the sanitiser masks or drops. -/
def Context.secret (c : Context) : Str → Bool :=
  c.sanitization.secret c.casing

/-- The default settings, for ASCII bodies that are not JSON, outside any request. -/
def Context.basic : Context where
  casing := Casing.basic
  reprs := ⟨fun _ => false, fun typeName _ => typeName⟩
  loads _ := none
  decode b := b.map fun x => if x < 128 then Char.ofNat x.toNat else Char.ofNat 0xFFFD
  sanitization := defaultConfig
  sensitiveHeaders := ["authorization".toList]
  maxBodyLen := 4096
  requestId := none

variable (c : Context)

/-- `redact_headers(headers)`. -/
def redactHeaders (headers : List (Str × Str)) : List (Str × Str) :=
  headers.map fun h =>
    if (c.sensitiveHeaders.map c.casing.lower).contains (c.casing.lower h.1) then
      (h.1, "[REDACTED]".toList)
    else h

/-- `serialize_body(value)` under the settings. -/
def bodyColumn (value : Value) : Option Str :=
  serializeBody c.casing c.sanitization c.loads c.decode value c.maxBodyLen

/-- The `error` column of an exception. -/
def errorColumn (exc : Exc) : ErrorColumn :=
  ⟨exc.typeName, buildErrorMessage c.reprs exc⟩

/-- How a call ended. -/
inductive Outcome (ρ : Type) : Type where
  /-- it returned -/
  | returned : ρ → Outcome ρ
  /-- it raised -/
  | raised : Exc → Outcome ρ

/-- The `request` an outbound response carries. -/
structure RequestContext : Type where
  /-- `"url"` -/
  url : Option Str
  /-- `"method"` -/
  method : Option Str
  /-- `"headers"`, if a `dict` -/
  headers : Option (List (Str × Str))
  /-- `"body"` -/
  body : Value

/-- What an outbound call returns. -/
structure HttpResponse : Type where
  /-- `request`, if a `dict` -/
  request : Option RequestContext
  /-- `status_code` -/
  statusCode : Option ℤ
  /-- `body` -/
  body : Value
  /-- `headers`, if a `dict` -/
  headers : Option (List (Str × Str))

/-- `build_row` of `log_outbound(service_name)`. -/
def outboundRow (serviceName : Str) (outcome : Outcome HttpResponse) (elapsedMs : Str) : Row :=
  let request : Option RequestContext := match outcome with
    | .returned result => result.request
    | .raised _ => none
  { direction := .outbound
    serviceName := serviceName
    requestId := c.requestId.getD []
    method := (request.bind RequestContext.method).getD []
    url := (request.bind RequestContext.url).getD []
    statusCode := match outcome with
      | .returned result => result.statusCode
      | .raised _ => none
    durationMs := elapsedMs
    requestHeaders := redactHeaders c ((request.bind RequestContext.headers).getD [])
    requestBody := request.bind fun ctx => bodyColumn c ctx.body
    responseHeaders := redactHeaders c (match outcome with
      | .returned result => result.headers.getD []
      | .raised _ => [])
    responseBody := match outcome with
      | .returned result => bodyColumn c result.body
      | .raised _ => none
    error := match outcome with
      | .returned _ => none
      | .raised exc => some (errorColumn c exc)
    extra := [] }

/-- What `log_inbound` reads of a request. -/
structure ViewRequest : Type where
  /-- `method` -/
  method : Option Str
  /-- `path` -/
  path : Option Str
  /-- `headers`, `none` where reading them raises -/
  headers : Option (List (Str × Str))
  /-- `content_type` -/
  contentType : Option Str
  /-- `POST` and `FILES` together, `none` where reading them raises -/
  form : Option QueryDict
  /-- `body`, `none` where reading it raises -/
  body : Option (List UInt8)

/-- What a view returns. -/
structure ViewResponse : Type where
  /-- `status_code` -/
  statusCode : Option ℤ
  /-- `data` -/
  data : Value
  /-- `headers`, `none` where reading them raises -/
  headers : Option (List (Str × Str))

/-- The body of a request as `log_inbound` records it. -/
def requestBody (request : ViewRequest) : Option Str :=
  if "multipart/form-data".toList.isPrefixOf (c.casing.lower (request.contentType.getD [])) then
    request.form.bind fun form =>
      bodyColumn c (summariseBodyForAudit c.casing c.sanitization (.form form))
  else
    match request.body with
    | some b => bodyColumn c (.bytes b)
    | Option.none => bodyColumn c .none

/-- `build_row` of `log_inbound(service_name)`. -/
def inboundRow (serviceName : Str) (request : Option ViewRequest)
    (outcome : Outcome ViewResponse) (elapsedMs : Str) : Row :=
  { direction := .inbound
    serviceName := serviceName
    requestId := c.requestId.getD []
    method := (request.bind ViewRequest.method).getD []
    url := (request.bind ViewRequest.path).getD []
    statusCode := match outcome with
      | .returned result => result.statusCode
      | .raised _ => none
    durationMs := elapsedMs
    requestHeaders := redactHeaders c ((request.bind ViewRequest.headers).getD [])
    requestBody := request.bind (requestBody c)
    responseHeaders := redactHeaders c (match outcome with
      | .returned result => result.headers.getD []
      | .raised _ => [])
    responseBody := match outcome with
      | .returned result => bodyColumn c result.data
      | .raised _ => none
    error := match outcome with
      | .returned _ => none
      | .raised exc => some (errorColumn c exc)
    extra := [] }

/-! ## What a row says of an exception -/

variable {c}

/-- The rows of two calls that raised, the request being the same, are the same exactly
if their `error` columns are. -/
theorem outboundRow_raised_eq_iff {serviceName elapsedMs : Str} {e e' : Exc} :
    outboundRow c serviceName (.raised e) elapsedMs =
        outboundRow c serviceName (.raised e') elapsedMs ↔
      errorColumn c e = errorColumn c e' := by
  simp [outboundRow]

theorem inboundRow_raised_eq_iff {serviceName elapsedMs : Str} {request : Option ViewRequest}
    {e e' : Exc} :
    inboundRow c serviceName request (.raised e) elapsedMs =
        inboundRow c serviceName request (.raised e') elapsedMs ↔
      errorColumn c e = errorColumn c e' := by
  simp [inboundRow]

/-- The message of a `BaseCustomError`, part by part. -/
theorem buildErrorMessage_custom {typeName message : Str} {e : CustomError} :
    buildErrorMessage r ⟨typeName, message, some e⟩ =
      (typeName ++ ": ".toList ++ message) ++
        ((statusCodePart e.statusCode).flatMap (fun p => " | ".toList ++ p) ++
          ((detailsPart r e.getDetails).flatMap (fun p => " | ".toList ++ p) ++
            (responseBodyPart r e.responseBody).flatMap fun p => " | ".toList ++ p)) := by
  simp only [buildErrorMessage, Str.join_cons, List.flatMap_append, List.append_assoc]

end ApiLog

end DjangoBoilerplate
