import DjangoBoilerplate.Repr

/-!
# The exception handler

`apps/core/exceptions/handler.py`: every error response of the API goes through
`api_exception_handler`, which wraps it in the envelope. A `BaseCustomError` gets the
status of the first class in the registry it is an instance of, unless it carries one;
an exception of the resilience kit is projected by the kit; what Django REST framework
handles has its `detail` flattened into the list of errors; the rest is a 500.

The classes are the elements of an arbitrary order, `C ≤ D` for `issubclass(C, D)`. What
the kit and the framework make of an exception is data here, and so is the `repr` of an
`ErrorDetail`, the framework's string type.
-/

namespace DjangoBoilerplate

namespace ExceptionHandler

universe u

/-! ## The registry -/

/-- A mapping: a class and its status. -/
abbrev Mapping (κ : Type u) : Type u := κ × ℤ

/-- `_CUSTOM_STATUS_MAP_BUILDER` and `_CUSTOM_STATUS_MAP`. -/
structure StatusMap (κ : Type u) : Type u where
  /-- the mappings, in the order they were registered -/
  builder : List (Mapping κ)
  /-- the frozen tuple, `None` when it is to be rebuilt -/
  cache : Option (List (Mapping κ))

namespace StatusMap

variable {κ : Type u}

/-- The registry of a module that has registered nothing. -/
def empty : StatusMap κ where
  builder := []
  cache := none

/-- `register_exception_mapping(exc_class, status_code)`. -/
def registerExceptionMapping (s : StatusMap κ) (m : Mapping κ) : StatusMap κ where
  builder := s.builder ++ [m]
  cache := none

/-- `_get_status_map()`: the tuple, and the registry it leaves. -/
def getStatusMap (s : StatusMap κ) : List (Mapping κ) × StatusMap κ :=
  match s.cache with
  | some cached => (cached, s)
  | none => (s.builder, { s with cache := some s.builder })

/-- The cache is to be rebuilt, or holds every mapping. -/
def Fresh (s : StatusMap κ) : Prop := s.cache = none ∨ s.cache = some s.builder

theorem Fresh.getStatusMap {s : StatusMap κ} (h : s.Fresh) :
    s.getStatusMap.1 = s.builder ∧ s.getStatusMap.2.builder = s.builder ∧
      s.getStatusMap.2.Fresh := by
  rcases h with h | h
  · simp [StatusMap.getStatusMap, StatusMap.Fresh, h]
  · simp [StatusMap.getStatusMap, StatusMap.Fresh, h]

end StatusMap

/-! ## The envelope -/

/-- An entry of `errors`, as `_build_error_dict` and `to_error_dict` build it. -/
structure ErrorItem : Type where
  /-- `"code"` -/
  code : Str
  /-- `"message"` -/
  message : Str
  /-- `"field"` -/
  field : Option Str
  /-- `"details"` -/
  details : Option Value

/-- `_build_error_dict(code, message, field=field)`. -/
def buildErrorDict (code message : Str) (field : Option Str) : ErrorItem where
  code := code
  message := message
  field := field
  details := none

/-- The body of an error response. -/
structure Envelope : Type where
  /-- `"success"` -/
  success : Bool
  /-- `"message"` -/
  message : Str
  /-- `"data"` -/
  data : Value
  /-- `"errors"` -/
  errors : List ErrorItem
  /-- `"request_id"` -/
  requestId : Option Str

/-- A response. -/
structure Response : Type where
  /-- the HTTP status -/
  status : ℤ
  /-- its data -/
  body : Envelope

/-- The envelope of a failure. -/
def failure (status : ℤ) (message : Str) (errors : List ErrorItem) (requestId : Option Str) :
    Response where
  status := status
  body :=
    { success := false
      message := message
      data := .none
      errors := errors
      requestId := requestId }

/-! ## What is raised -/

/-- What the handler reads of a `BaseCustomError`. -/
structure CustomExc (κ : Type u) : Type u where
  /-- its class -/
  cls : κ
  /-- its `status_code`, if it has the attribute -/
  statusCode : Option ℤ
  /-- `str(exc)` -/
  text : Str
  /-- `to_error_dict()` -/
  errorDict : ErrorItem
  /-- `request_id` -/
  requestId : Option Str

/-- The `detail` of an `APIException`: a message with its code, a `list`, or a `dict` in
the order of its keys. -/
inductive Detail : Type where
  | message (text code : Str) : Detail
  | list (items : List Detail) : Detail
  | dict (items : List (Str × Detail)) : Detail

/-- What reaches the handler. -/
inductive Raised (κ : Type u) : Type u where
  /-- a `BaseCustomError` -/
  | custom (exc : CustomExc κ) : Raised κ
  /-- another `ResilienceKitError`, with what the kit's `from_exception` makes of it -/
  | kit (response : Response) : Raised κ
  /-- an exception the framework handles: the name of its class, the status of the
  framework's response, its `detail` and its `request_id`, if it has one -/
  | framework (typeName : Str) (status : ℤ) (detail : Detail) (requestId : Option Str) : Raised κ
  /-- any other exception -/
  | other : Raised κ

/-! ## `str` of a detail -/

variable (r : Reprs) (errorDetail : Str → Str → Str)

mutual

/-- `repr(detail)`. -/
def Detail.repr : Detail → Str
  | .message text code => errorDetail text code
  | .list items => '[' :: (Detail.listRepr items ++ [']'])
  | .dict items => '\x7b' :: (Detail.dictRepr items ++ ['\x7d'])

/-- The elements of a `list`, joined. -/
def Detail.listRepr : List Detail → Str
  | [] => []
  | [d] => Detail.repr d
  | d :: ds => Detail.repr d ++ ", ".toList ++ Detail.listRepr ds

/-- The items of a `dict`, joined. -/
def Detail.dictRepr : List (Str × Detail) → Str
  | [] => []
  | [(name, d)] => strRepr r name ++ ": ".toList ++ Detail.repr d
  | (name, d) :: ds =>
    strRepr r name ++ ": ".toList ++ Detail.repr d ++ ", ".toList ++ Detail.dictRepr ds

end

/-- `str(detail)`: a message is its own text. -/
def Detail.str : Detail → Str
  | .message text _ => text
  | d => Detail.repr r errorDetail d

/-- `if detail`. -/
def Detail.truthy : Detail → Bool
  | .message text _ => !text.isEmpty
  | .list items => !items.isEmpty
  | .dict items => !items.isEmpty

/-! ## The handler -/

/-- An underscore before a capital that follows a small letter or a digit. -/
def snakeCase : Option Char → Str → Str
  | _, [] => []
  | before, c :: cs =>
    if c.isUpper && before.any fun b => b.isLower || b.isDigit then
      '_' :: c :: snakeCase (some c) cs
    else c :: snakeCase (some c) cs

/-- `_drf_error_code(exc)`, from the name of the class. -/
def drfErrorCode (typeName : Str) : Str := (snakeCase none typeName).map Char.toUpper

/-- `getattr(exc, "request_id", None) or get_request_id()`. -/
def requestIdOf (own current : Option Str) : Option Str :=
  match own with
  | some (c :: cs) => some (c :: cs)
  | _ => current

/-- The status of a `BaseCustomError`: its own, or that of the first class it is an
instance of. -/
def statusOf {κ : Type u} [LE κ] [DecidableLE κ] (statusMap : List (Mapping κ))
    (exc : CustomExc κ) : ℤ :=
  match exc.statusCode with
  | some code => code
  | none =>
    match statusMap.find? fun m => decide (exc.cls ≤ m.1) with
    | some m => m.2
    | none => 500

/-- What the framework's `exception_handler` puts in `response.data`. -/
def frameworkData : Detail → Detail
  | .message text code => .dict [("detail".toList, .message text code)]
  | d => d

/-- The errors of one field of the payload. -/
def fieldErrors (name : Str) : Detail → List ErrorItem
  | .list msgs =>
    msgs.map fun msg =>
      buildErrorDict "VALIDATION_ERROR".toList (msg.str r errorDetail) (some name)
  | msgs => [buildErrorDict "VALIDATION_ERROR".toList (msgs.str r errorDetail) (some name)]

/-- `response.data.pop("detail", None)`: what it returns, and what is left. -/
def popDetail (items : List (Str × Detail)) : Option Detail × List (Str × Detail) :=
  (items.find? (·.1 = "detail".toList) |>.map (·.2), items.filter (·.1 ≠ "detail".toList))

/-- `str(detail) if detail else "Validation failed"`. -/
def detailMessage : Option Detail → Str
  | some d => if d.truthy then d.str r errorDetail else "Validation failed".toList
  | none => "Validation failed".toList

/-- The message and the errors of the envelope, from `response.data`. -/
def flatten (errorCode : Str) : Detail → Str × List ErrorItem
  | .dict items =>
    match popDetail items with
    | (detail, []) =>
      (detailMessage r errorDetail detail,
        [buildErrorDict errorCode (detailMessage r errorDetail detail) none])
    | (detail, remaining) =>
      (detailMessage r errorDetail detail,
        remaining.flatMap fun p => fieldErrors r errorDetail p.1 p.2)
  | .list items =>
    (Str.join "; ".toList (items.map (Detail.str r errorDetail)),
      items.map fun d => buildErrorDict errorCode (d.str r errorDetail) none)
  | .message text _ => (text, [buildErrorDict errorCode text none])

/-- `api_exception_handler(exc, context)`, with the registry, in a request with the given
id. -/
def apiExceptionHandler {κ : Type u} [LE κ] [DecidableLE κ] (registry : StatusMap κ)
    (current : Option Str) : Raised κ → Response × StatusMap κ
  | .custom exc =>
    -- the registry is read only if the instance carries no status of its own
    let after := if exc.statusCode.isSome then registry else registry.getStatusMap.2
    (failure (statusOf registry.getStatusMap.1 exc) exc.text [exc.errorDict]
      (requestIdOf exc.requestId current), after)
  | .kit response =>
    ({ response with body := { response.body with requestId := current } }, registry)
  | .framework typeName status detail requestId =>
    let flat := flatten r errorDetail (drfErrorCode typeName) (frameworkData detail)
    (failure status flat.1 flat.2 (requestIdOf requestId current), registry)
  | .other =>
    (failure 500 "An unexpected error occurred.".toList
      [buildErrorDict "INTERNAL_SERVER_ERROR".toList "An unexpected error occurred.".toList none]
      current, registry)

end ExceptionHandler

end DjangoBoilerplate
