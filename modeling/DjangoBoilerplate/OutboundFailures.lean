import DjangoBoilerplate.ApiLogRows

/-!
# Failed outbound calls

`apps/core/exceptions/utils.py` reads the status and the body of the upstream response off
any exception of an outbound call, by the attributes it has, and always comes up with a
status. The rows of `log_outbound` (`apps/core/api_log/outbound.py`) do not use it: for a
call that raised, the row has neither (`outboundRow_not_normalised`), only the `error` column.
-/

namespace DjangoBoilerplate

namespace ApiLog

/-- An exception of an outbound call, with the attributes that are read off it: `.none`
where it has no such attribute. -/
structure Failure : Type where
  /-- the exception -/
  exc : Exc
  /-- `response` -/
  response : Value
  /-- `response_body` -/
  responseBody : Value
  /-- `details` -/
  details : Value
  /-- `response_status_code` -/
  responseStatusCode : Value
  /-- `status_code` -/
  statusCode : Value

variable (c : Context)

/-- The last resort of `exception_response_payload`: `details`, if a `dict` that is not
empty. -/
def detailsPayload (f : Failure) : Value :=
  match f.details with
  | .dict (item :: items) => .dict (item :: items)
  | _ => .none

/-- `exception_response_payload(exc)`. -/
def exceptionResponsePayload (f : Failure) : Value :=
  match f.response with
  | .dict items => .dict items
  | _ =>
    match f.responseBody with
    | .str (ch :: s) =>
      match c.loads (ch :: s) with
      | some (.dict items) => .dict items
      | _ => detailsPayload f
    | _ => detailsPayload f

/-- `exception_wire_status(exc)`. -/
def exceptionWireStatus (f : Failure) : Value :=
  if f.responseStatusCode.truthy then f.responseStatusCode
  else if f.statusCode.truthy then f.statusCode
  else .int 502

/-- `normalize_outbound_exception(exc)`. -/
def normalizeOutboundException (f : Failure) : List (Str × Value) :=
  [("status_code".toList, exceptionWireStatus f),
    ("response_body".toList, exceptionResponsePayload c f)]

/-- The fallback: the status is always something. -/
theorem truthy_exceptionWireStatus (f : Failure) : (exceptionWireStatus f).truthy = true := by
  rw [exceptionWireStatus]
  split
  next h => exact h
  next =>
    split
    next h => exact h
    next => rfl

/-- The row has the normalised shape: the status of the exception, and the payload as a
body. -/
def Normalised (row : Row) (f : Failure) : Prop :=
  (row.statusCode.map Value.int).getD .none = exceptionWireStatus f ∧
    row.responseBody = bodyColumn c (exceptionResponsePayload c f)

/-- No row of a failed outbound call has the normalised shape, whatever the exception: it
has no status, and the normaliser always has one. -/
theorem outboundRow_not_normalised (serviceName elapsedMs : Str) (f : Failure) :
    ¬ Normalised c (outboundRow c serviceName (.raised f.exc) elapsedMs) f := by
  rintro ⟨hstatus, -⟩
  have htruthy := truthy_exceptionWireStatus f
  rw [← hstatus] at htruthy
  cases htruthy

/-- An `APIError` for a 503: the row has no status. -/
theorem upstream_error_not_normalised :
    ¬ ∀ (c : Context) (serviceName elapsedMs : Str) (f : Failure),
      Normalised c (outboundRow c serviceName (.raised f.exc) elapsedMs) f := by
  intro halways
  obtain ⟨hstatus, -⟩ := halways Context.basic "partner_api".toList "1.5".toList
    { exc := apiError "upstream down".toList (some 503) (.text "busy".toList) []
      response := .none
      responseBody := .str "busy".toList
      details := .none
      responseStatusCode := .none
      statusCode := .int 503 }
  cases hstatus

end ApiLog

end DjangoBoilerplate
