import DjangoBoilerplate.LogSanitization

/-!
# Sanitisers of the audit rows

`apps/core/api_log/sanitizers.py`: a request or response body becomes the string
of an `api_logs` row. `summariseBodyForAudit` turns a multipart form into a list
of entries, `serializeBody` sanitises a value, encodes it and cuts it to the cap.

`json.loads` and the decoding of bytes are the library's and enter as functions.
-/

namespace DjangoBoilerplate

namespace Sanitizers

open LogSanitization

/-! ## Multipart forms -/

/-- What a `QueryDict` holds under a field name. -/
inductive FormItem : Type where
  /-- a `str` -/
  | text : Str → FormItem
  /-- an `UploadedFile`: its name, content type and size -/
  | upload : Option Str → Option Str → ℕ → FormItem
  /-- `bytes` -/
  | bytes : List UInt8 → FormItem
  /-- anything else, by its `str()` -/
  | other : Str → FormItem

/-- A `QueryDict`: field names, each with the list of its values. -/
structure QueryDict : Type where
  /-- the fields -/
  items : List (Str × List FormItem)
  /-- a field name occurs once -/
  nodup : (items.map Prod.fst).Nodup

/-- A body on its way to the audit row. -/
inductive Body : Type where
  /-- a multipart form -/
  | form : QueryDict → Body
  /-- a `MultipartEncoder` or `FormData`, by the names of its fields -/
  | encoder : List Str → Body
  /-- any other value -/
  | value : Value → Body

/-- The keys of an entry. -/
def nameKey : Str := "name".toList
/-- `"value"` -/
def valueKey : Str := "value".toList
/-- `"fields"` -/
def fieldsKey : Str := "fields".toList
/-- `"__multipart__"` -/
def multipartKey : Str := "__multipart__".toList
/-- `"size_bytes"` -/
def sizeKey : Str := "size_bytes".toList

/-- `item if len(item) <= 200 else item[:200] + "…"`. -/
def clip (item : Str) : Str :=
  if item.length ≤ 200 then item else item.take 200 ++ ['…']

/-- The entry of one value. -/
def fieldEntry (key : Str) : FormItem → List (Str × Value)
  | .text s => [(nameKey, .str key), (valueKey, .str (clip s))]
  | .upload filename contentType size =>
    [(nameKey, .str key), ("filename".toList, match filename with
      | some s => .str s
      | Option.none => .none)] ++
    (match contentType with
      | some s => if s.isEmpty then [] else [("content_type".toList, .str s)]
      | Option.none => []) ++
    [(sizeKey, .int size)]
  | .bytes b => [(nameKey, .str key), (sizeKey, .int b.length)]
  | .other s => [(nameKey, .str key), (valueKey, .str s)]

/-- One entry for each value, in the order of the form. -/
def QueryDict.fields (qd : QueryDict) : List (Str × List (Str × Value)) :=
  qd.items.flatMap fun (key, values) => values.map fun item => (key, fieldEntry key item)

/-- `{f["name"]: f.get("value") for f in fields if "value" in f}`. -/
def scalarView (fields : List (Str × List (Str × Value))) : List (Str × Value) :=
  fields.foldl (fun view (name, entry) =>
    match getItem entry valueKey with
    | some v => setItem view name v
    | Option.none => view) []

/-- The value of an entry, replaced by that of the redacted view. -/
def mergeEntry (redacted : List (Str × Value)) (name : Str) (entry : List (Str × Value)) :
    List (Str × Value) :=
  match getItem entry valueKey, getItem redacted name with
  | some _, some v => setItem entry valueKey v
  | _, _ => entry

/-- The items of a `dict`; other values have none. -/
def itemsOf : Value → List (Str × Value)
  | .dict items => items
  | _ => []

variable (u : Casing) (cfg : Config)

/-- `audit_safe(value)`. -/
def auditSafe : Value → Value
  | .bytes b => .dict [("__bytes__".toList, .bool true), (sizeKey, .int b.length)]
  | v => v

/-- `summarise_body_for_audit(value)`. -/
def summariseBodyForAudit : Body → Value
  | .form qd =>
    let fields := qd.fields
    let redacted := itemsOf
      (sanitizeForLog u cfg (.dict (scalarView fields)) Option.none Option.none Option.none)
    .dict [(multipartKey, .bool true),
      (fieldsKey, .seq (fields.map fun (name, entry) => .dict (mergeEntry redacted name entry)))]
  | .encoder names =>
    .dict [(multipartKey, .bool true),
      (fieldsKey, .seq (names.map fun name => .dict [(nameKey, .str name)]))]
  | .value v => auditSafe v

/-! ## The body of a row -/

/-- `truncate(text, max_len)` of a text. -/
def truncate (text : Str) (maxLen : ℕ) : Str :=
  if text.length ≤ maxLen then text else text.take maxLen ++ "…[truncated]".toList

variable (loads : Str → Option Value) (decode : List UInt8 → Str)

/-- `_try_parse_json(text, fallback=text)`: the parsed value if it is a `dict` or
a `list`. -/
def tryParseJson (text : Str) : Value :=
  match loads text with
  | some (.dict items) => .dict items
  | some (.seq items) => .seq items
  | _ => .str text

/-- `serialize_body(value, max_len)`. -/
def serializeBody (value : Value) (maxLen : ℕ) : Option Str :=
  match value with
  | .none => Option.none
  | _ =>
    let structured :=
      match value with
      | .bytes b => tryParseJson loads (decode b)
      | .str s => tryParseJson loads s
      | v => v
    match sanitizeForLog u cfg structured (some maxLen) Option.none Option.none with
    | .str text => some (truncate text maxLen)
    | redacted => (dumps redacted).map fun text => truncate text maxLen

end Sanitizers

end DjangoBoilerplate
