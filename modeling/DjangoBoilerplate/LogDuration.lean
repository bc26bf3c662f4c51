import DjangoBoilerplate.Json

/-!
# Timing a block

`log_duration` of `apps/core/utils/logging.py` logs how long a block took, with the caller's
extras, and tees the duration into `record_duration` of `apps/core/metrics.py`. It is meant to
change nothing about the block. But the extras become attributes of a log record, and some of
them keyword arguments: `transparent_iff` says which extras make one of the two raise.
-/

namespace DjangoBoilerplate

namespace LogDuration

variable {E : Type}

/-- How the `with` statement raises. -/
inductive Raised (E : Type) : Type where
  /-- the exception of the block -/
  | block (e : E) : Raised E
  /-- the `KeyError` of `logging` for an attribute that would be overwritten -/
  | keyError (name : Str) : Raised E
  /-- the `TypeError` of a call that gets one argument twice -/
  | typeError (name : Str) : Raised E
  /-- the `CardinalityViolation` of a label that is forbidden -/
  | forbiddenLabel (name : Str) : Raised E
  /-- that of a label that is not in the allow-list -/
  | unboundedLabel (name : Str) : Raised E

/-! ## Log records -/

/-- The attributes of a `LogRecord`, with the two that a formatter sets. -/
def logRecordAttributes : List Str :=
  ["name", "msg", "args", "levelname", "levelno", "pathname", "filename", "module", "exc_info",
    "exc_text", "stack_info", "lineno", "funcName", "created", "msecs", "relativeCreated",
    "thread", "threadName", "processName", "process", "taskName", "message",
    "asctime"].map String.toList

/-- `logger.info(..., extra=extra)` or `logger.error(..., extra=extra)`. -/
def logRecord (extra : List (Str × Value)) : Except (Raised E) Unit :=
  match (keysOf extra).find? fun k => logRecordAttributes.contains k with
  | some k => .error (.keyError k)
  | none => .ok ()

/-- The `dict` display `{**base, **extras}`. -/
def merged (base extras : List (Str × Value)) : List (Str × Value) :=
  extras.foldl (fun d x => setItem d x.1 x.2) base

/-! ## The metrics shim -/

/-- `_BOUNDED_LABEL_KEYS`. -/
def boundedLabelKeys : List Str :=
  ["event", "subsystem", "status", "partner_slug", "outcome"].map String.toList

/-- `_FORBIDDEN_LABEL_KEYS`. -/
def forbiddenLabelKeys : List Str :=
  ["request_id", "app_number", "query_id", "partner_id", "user_id", "remark_id", "outbox_id",
    "url", "error", "error_message", "email", "phone", "pan", "aadhaar"].map String.toList

/-- `_assert_bounded(labels)`. -/
def assertBounded (labels : List (Str × Value)) : Except (Raised E) Unit :=
  match (keysOf labels).find? fun k =>
      forbiddenLabelKeys.contains k || !boundedLabelKeys.contains k with
  | some k =>
    .error (if forbiddenLabelKeys.contains k then .forbiddenLabel k else .unboundedLabel k)
  | none => .ok ()

/-- The named parameters of `record_duration`. -/
def recordDurationParameters : List Str := ["event", "duration_ms", "status"].map String.toList

/-- `record_duration(event, duration_ms, status=status, **bounded_labels)`. -/
def recordDuration (event : Str) (durationMs : Value) (status : Str)
    (boundedLabels : List (Str × Value)) : Except (Raised E) Unit :=
  match (keysOf boundedLabels).find? fun k => recordDurationParameters.contains k with
  | some k => .error (.typeError k)
  | none =>
    match assertBounded boundedLabels with
    | .error e => .error e
    | .ok () =>
      logRecord (merged [("metric".toList, .str "duration".toList), ("event".toList, .str event),
        ("duration_ms".toList, durationMs), ("status".toList, .str status)] boundedLabels)

/-! ## `log_duration` -/

/-- The extras of a call: keyword arguments that are none of its named ones. -/
structure Extras : Type where
  /-- the keywords and their values -/
  items : List (Str × Value)
  /-- no keyword twice -/
  nodup : (keysOf items).Nodup
  /-- none that is a parameter of its own -/
  named : ∀ k ∈ keysOf items, k ∉ ["logger", "event", "metric"].map String.toList

/-- `isinstance(v, str | int | float)`. -/
def isScalar : Value → Bool
  | .str _ => true
  | .int _ => true
  | .float _ => true
  -- a `bool` is an `int`
  | .bool _ => true
  | _ => false

/-- The extras that are forwarded as labels. -/
def Extras.bounded (extras : Extras) : List (Str × Value) :=
  extras.items.filter fun x => boundedLabelKeys.contains x.1 && isScalar x.2

/-- `_record_metric_safe(event, duration_ms, status, extras)`. -/
def recordMetricSafe (event : Str) (durationMs : Value) (status : Str) (extras : Extras) :
    Except (Raised E) Unit :=
  recordDuration event durationMs status extras.bounded

/-- The `extra` of the record. -/
def extraOf (event : Str) (durationMs : Value) (ok : Bool) (extras : Extras) :
    List (Str × Value) :=
  merged [("event".toList, .str event), ("duration_ms".toList, durationMs), ("ok".toList, .bool ok)]
    extras.items

/-- What is logged and recorded when the block is over. -/
def report (event : Str) (metric : Bool) (durationMs : Value) (ok : Bool) (extras : Extras) :
    Except (Raised E) Unit :=
  match logRecord (extraOf event durationMs ok extras) with
  | .error e => .error e
  | .ok () =>
    if metric then
      recordMetricSafe event durationMs (if ok then "ok".toList else "error".toList) extras
    else .ok ()

/-- `with log_duration(logger, event, metric=metric, **extras): block`. -/
def logDuration (event : Str) (metric : Bool) (extras : Extras) (durationMs : Value)
    (block : Except E Unit) : Except (Raised E) Unit :=
  match block with
  | .error e =>
    match report event metric durationMs false extras with
    | .error e' => .error e'
    -- `raise`
    | .ok () => .error (.block e)
  | .ok () => report event metric durationMs true extras

/-! ## What raises -/

theorem mem_keysOf_merged {base extras : List (Str × Value)} {k : Str} :
    k ∈ keysOf (merged base extras) ↔ k ∈ keysOf base ∨ k ∈ keysOf extras := by
  induction extras generalizing base with
  | nil => simp [merged, keysOf]
  | cons x extras ih =>
    have hcons : merged base (x :: extras) = merged (setItem base x.1 x.2) extras := rfl
    rw [hcons, ih, mem_keysOf_setItem, keysOf, keysOf, keysOf, List.map_cons, List.mem_cons]
    tauto

/-- Names the code uses itself are checked one by one. -/
theorem not_attribute_of_all {names : List Str}
    (h : (names.all fun k => !logRecordAttributes.contains k) = true) :
    ∀ k ∈ names, k ∉ logRecordAttributes := by
  intro k hk
  simpa using List.all_eq_true.mp h k hk

/-- A record is made if no attribute is in the way, -/
theorem logRecord_of_free {extra : List (Str × Value)}
    (h : ∀ k ∈ keysOf extra, k ∉ logRecordAttributes) :
    (logRecord extra : Except (Raised E) Unit) = .ok () := by
  have hnone : ((keysOf extra).find? fun k => logRecordAttributes.contains k) = none := by
    rw [List.find?_eq_none]
    intro k hk
    simpa using h k hk
  rw [logRecord, hnone]

/-- and else it is a `KeyError`. -/
theorem logRecord_of_mem {extra : List (Str × Value)} {k : Str} (hk : k ∈ keysOf extra)
    (hattribute : k ∈ logRecordAttributes) :
    ∃ name, (logRecord extra : Except (Raised E) Unit) = .error (.keyError name) := by
  have hsome : ((keysOf extra).find? fun k => logRecordAttributes.contains k).isSome = true := by
    rw [List.find?_isSome]
    exact ⟨k, hk, by simpa using hattribute⟩
  obtain ⟨name, hname⟩ := Option.isSome_iff_exists.mp hsome
  exact ⟨name, by rw [logRecord, hname]⟩

theorem mem_bounded {extras : Extras} {x : Str × Value} :
    x ∈ extras.bounded ↔ x ∈ extras.items ∧ x.1 ∈ boundedLabelKeys ∧ isScalar x.2 = true := by
  simp [Extras.bounded, List.mem_filter]

theorem keysOf_bounded {extras : Extras} {k : Str} (h : k ∈ keysOf extras.bounded) :
    k ∈ boundedLabelKeys ∧ k ∈ keysOf extras.items := by
  obtain ⟨x, hx, rfl⟩ := List.mem_map.mp h
  obtain ⟨hitem, hbounded, -⟩ := mem_bounded.mp hx
  exact ⟨hbounded, List.mem_map_of_mem hitem⟩

/-- The only parameter of `record_duration` among the labels can be `status`. -/
theorem eq_status_of_parameter {extras : Extras} {k : Str} (hk : k ∈ keysOf extras.bounded)
    (hparameter : k ∈ recordDurationParameters) : k = "status".toList := by
  obtain ⟨hbounded, hitem⟩ := keysOf_bounded hk
  have hnamed := extras.named k hitem
  simp only [recordDurationParameters, List.map_cons, List.map_nil, List.mem_cons,
    List.not_mem_nil, or_false] at hparameter
  rcases hparameter with rfl | rfl | rfl
  · exact absurd (by decide) hnamed
  · exact absurd hbounded (by decide)
  · rfl

/-- A scalar `status` is an extra that `record_duration` gets twice. -/
theorem status_mem_bounded_iff {extras : Extras} :
    "status".toList ∈ keysOf extras.bounded ↔
      ∃ v, getItem extras.items "status".toList = some v ∧ isScalar v = true := by
  constructor
  · intro h
    obtain ⟨x, hx, hkey⟩ := List.mem_map.mp h
    obtain ⟨hitem, -, hscalar⟩ := mem_bounded.mp hx
    refine ⟨x.2, ?_, hscalar⟩
    rw [← hkey]
    exact (mem_iff_getItem extras.nodup).mp hitem
  · rintro ⟨v, hv, hscalar⟩
    have hitem : ("status".toList, v) ∈ extras.items := (mem_iff_getItem extras.nodup).mpr hv
    have hkey : "status".toList ∈ boundedLabelKeys := by decide
    exact List.mem_map.mpr ⟨_, mem_bounded.mpr ⟨hitem, hkey, hscalar⟩, rfl⟩

/-- What the tee passes on are bounded labels. -/
theorem assertBounded_bounded (extras : Extras) :
    (assertBounded extras.bounded : Except (Raised E) Unit) = .ok () := by
  have hall : (boundedLabelKeys.all fun k =>
      !(forbiddenLabelKeys.contains k || !boundedLabelKeys.contains k)) = true := by decide
  have hnone : ((keysOf extras.bounded).find? fun k =>
      forbiddenLabelKeys.contains k || !boundedLabelKeys.contains k) = none := by
    rw [List.find?_eq_none]
    intro k hk
    obtain ⟨hmem, -⟩ := keysOf_bounded hk
    simpa using List.all_eq_true.mp hall k hmem
  rw [assertBounded, hnone]

/-- The tee raises for a scalar `status`, -/
theorem recordMetricSafe_of_status {event : Str} {durationMs : Value} {status : Str}
    {extras : Extras} (h : "status".toList ∈ keysOf extras.bounded) :
    ∃ name, (recordMetricSafe event durationMs status extras : Except (Raised E) Unit) =
      .error (.typeError name) := by
  have hsome : ((keysOf extras.bounded).find?
      fun k => recordDurationParameters.contains k).isSome = true := by
    rw [List.find?_isSome]
    exact ⟨_, h, by decide⟩
  obtain ⟨name, hname⟩ := Option.isSome_iff_exists.mp hsome
  exact ⟨name, by rw [recordMetricSafe, recordDuration, hname]⟩

/-- and for nothing else: the labels are bounded, and no attributes of a record. -/
theorem recordMetricSafe_of_not_status {event : Str} {durationMs : Value} {status : Str}
    {extras : Extras} (h : "status".toList ∉ keysOf extras.bounded) :
    (recordMetricSafe event durationMs status extras : Except (Raised E) Unit) = .ok () := by
  have hparameters : ((keysOf extras.bounded).find?
      fun k => recordDurationParameters.contains k) = none := by
    rw [List.find?_eq_none]
    intro k hk hparameter
    obtain rfl := eq_status_of_parameter hk (by simpa using hparameter)
    exact h hk
  rw [recordMetricSafe, recordDuration, hparameters, assertBounded_bounded]
  refine logRecord_of_free ?_
  intro k hk
  rcases mem_keysOf_merged.mp hk with hbase | hlabel
  · exact not_attribute_of_all rfl k hbase
  · obtain ⟨hmem, -⟩ := keysOf_bounded hlabel
    exact not_attribute_of_all (by decide) k hmem

/-! ## What changes nothing -/

/-- Extras that are no attributes of a record, and no scalar `status` if there is a metric. -/
structure Harmless (metric : Bool) (extras : Extras) : Prop where
  /-- for the log -/
  attributes : ∀ k ∈ keysOf extras.items, k ∉ logRecordAttributes
  /-- for the metric -/
  status : metric = true → ∀ v, getItem extras.items "status".toList = some v → isScalar v = false

/-- The record of a block is made if the extras are no attributes. -/
theorem logRecord_extraOf {event : Str} {durationMs : Value} {ok : Bool} {extras : Extras}
    (h : ∀ k ∈ keysOf extras.items, k ∉ logRecordAttributes) :
    (logRecord (extraOf event durationMs ok extras) : Except (Raised E) Unit) = .ok () := by
  refine logRecord_of_free ?_
  intro k hk
  rcases mem_keysOf_merged.mp hk with hbase | hextra
  · exact not_attribute_of_all rfl k hbase
  · exact h k hextra

section Report

variable (event : Str) {metric : Bool} (durationMs : Value) (ok : Bool) {extras : Extras}

/-- The report goes through if the extras are harmless, -/
theorem report_of_harmless (h : Harmless metric extras) :
    (report event metric durationMs ok extras : Except (Raised E) Unit) = .ok () := by
  rw [report, logRecord_extraOf h.attributes]
  cases metric with
  | false => rfl
  | true =>
    refine recordMetricSafe_of_not_status ?_
    intro hstatus
    obtain ⟨v, hv, hscalar⟩ := status_mem_bounded_iff.mp hstatus
    rw [h.status rfl v hv] at hscalar
    cases hscalar

/-- and else raises an exception of its own. -/
theorem report_of_not_harmless (h : ¬ Harmless metric extras) :
    ∃ e, (∀ e', e ≠ .block e') ∧
      (report event metric durationMs ok extras : Except (Raised E) Unit) = .error e := by
  by_cases hfree : ∀ k ∈ keysOf extras.items, k ∉ logRecordAttributes
  · -- so there is a metric, and a `status` for it
    have hstatus : metric = true ∧ "status".toList ∈ keysOf extras.bounded := by
      by_contra hnot
      refine h ⟨hfree, fun hmetric v hv => ?_⟩
      rw [← Bool.not_eq_true]
      intro hscalar
      exact hnot ⟨hmetric, status_mem_bounded_iff.mpr ⟨v, hv, hscalar⟩⟩
    obtain ⟨rfl, hmem⟩ := hstatus
    obtain ⟨name, hname⟩ : ∃ name, (recordMetricSafe event durationMs
        (if ok then "ok".toList else "error".toList) extras : Except (Raised E) Unit) =
          .error (.typeError name) := recordMetricSafe_of_status hmem
    refine ⟨.typeError name, by simp, ?_⟩
    rw [report, logRecord_extraOf hfree]
    exact hname
  · push Not at hfree
    obtain ⟨k, hk, hattribute⟩ := hfree
    obtain ⟨name, hname⟩ : ∃ name,
        (logRecord (extraOf event durationMs ok extras) : Except (Raised E) Unit) =
          .error (.keyError name) :=
      logRecord_of_mem (mem_keysOf_merged.mpr (Or.inr hk)) hattribute
    refine ⟨.keyError name, by simp, ?_⟩
    rw [report, hname]

end Report

/-- **Timing a block.** The `with` statement ends as the block does, whatever that is, exactly if
the extras are harmless. -/
theorem transparent_iff (event : Str) (metric : Bool) (extras : Extras) (durationMs : Value)
    (block : Except E Unit) :
    logDuration event metric extras durationMs block = block.mapError .block ↔
      Harmless metric extras := by
  constructor
  · intro h
    by_contra hnot
    cases block with
    | error e =>
      obtain ⟨e', hblock, hreport⟩ := report_of_not_harmless (E := E) event durationMs false hnot
      simp only [logDuration, hreport] at h
      exact hblock e (Except.error.inj h)
    | ok _ =>
      obtain ⟨e', -, hreport⟩ := report_of_not_harmless (E := E) event durationMs true hnot
      simp only [logDuration, hreport] at h
      cases h
  · intro h
    cases block with
    | error e =>
      simp only [logDuration, report_of_harmless event durationMs false h]
      rfl
    | ok _ =>
      simp only [logDuration, report_of_harmless event durationMs true h]
      rfl

/-- A healthy block, timed with `name="report"`. -/
theorem name_extra_raises :
    ¬ ∀ (event : Str) (metric : Bool) (extras : Extras) (durationMs : Value)
        (block : Except Unit Unit),
      logDuration event metric extras durationMs block = block.mapError .block := by
  intro halways
  have h := halways "export".toList false ⟨[("name".toList, .str "report".toList)], by decide, by
    decide⟩ (.float "1.5".toList) (.ok ())
  cases h

/-- A `status` that is a metric's own, on a block that fails. -/
example : (logDuration "export".toList true ⟨[("status".toList, .str "done".toList)], by decide,
    by decide⟩ (.float "1.5".toList) (.error ()) : Except (Raised Unit) Unit) =
      .error (.typeError "status".toList) := by
  rfl

end LogDuration

end DjangoBoilerplate
