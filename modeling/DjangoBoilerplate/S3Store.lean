import DjangoBoilerplate.JsonRoundTrip
import DjangoBoilerplate.Machine
import DjangoBoilerplate.S3Uri

/-!
# Objects in S3

The upload, fetch and delete functions of `apps/core/utils/s3.py` over a client of the service,
which is library code and a parameter. It may fail at every call, and a write that is reported to
have failed may have been carried out all the same. Each label is one attempt, so that a call which
the resilience kit tries again is several of them.

What the store should have is read off the attempts: the last one that was carried out decides
(`held`). Whatever the writes and their failures, an object with a plain key is read through the URI
of its upload as that says, if the client reads what was written (`Client.ReadsWrites`): JSON
documents come back as the values they were, within the limit of the reader (`read_last_upload`).
-/

namespace DjangoBoilerplate

namespace S3

open JsonText

/-! ## The client -/

/-- What a call of the client raises. -/
inductive ClientFailure : Type where
  /-- `ClientError`, with its code -/
  | clientError (code : Str)
  /-- `BotoCoreError` -/
  | botoCoreError

/-- How an attempt to write ends. -/
inductive Attempt : Type where
  /-- it is carried out -/
  | done
  /-- it is carried out, and the answer is lost -/
  | lost (failure : ClientFailure)
  /-- it is not carried out -/
  | refused (failure : ClientFailure)

/-- Is the write carried out? -/
def Attempt.applied : Attempt → Bool
  | .refused _ => false
  | _ => true

/-- What the attempt raises. -/
def Attempt.failure : Attempt → Option ClientFailure
  | .done => none
  | .lost failure => some failure
  | .refused failure => some failure

/-- An object. -/
structure S3Object : Type where
  /-- `Body` -/
  body : ByteArray
  /-- `ContentType` -/
  contentType : Str

/-- The client, over the states of the service. -/
structure Client (σ : Type) : Type where
  /-- `put_object` and `upload_fileobj`, or `delete_object` where there is no object: the service
  after an attempt, and what is raised -/
  write : σ → Str × Str → Option S3Object → Attempt → σ × Option ClientFailure
  /-- `get_object`, which may fail on its way -/
  get : σ → Str × Str → Option ClientFailure → Except ClientFailure S3Object
  /-- `head_object`, likewise -/
  head : σ → Str × Str → Option ClientFailure → Except ClientFailure S3Object

/-- What the functions raise. -/
inductive S3Error : Type where
  /-- `InvalidInputError` -/
  | invalidInput (message : Str)
  /-- `S3NotFoundError` -/
  | notFound (message : Str)
  /-- any other `S3Exception` -/
  | failed (message : Str)
  /-- `json.dumps` raises -/
  | dumps
  /-- `UnicodeDecodeError` -/
  | unicode
  /-- the `ValueError` about an integer with too many digits -/
  | digits
  /-- an unpaired surrogate, where the model stops -/
  | surrogate

/-- `bucket/key`, as the messages have it. -/
def objectName (o : Str × Str) : Str := o.1 ++ '/' :: o.2

/-- `S3NotFoundError(f"S3 object not found: {bucket}/{key}")`. -/
def missing (o : Str × Str) : S3Error := .notFound ("S3 object not found: ".toList ++ objectName o)

/-- The codes of an object that is not there. -/
def absentCodes : List Str := ["404", "NoSuchKey", "NotFound"].map String.toList

/-- `_s3_call(operation, bucket, key)`: what becomes of an exception of the client. -/
def s3Call (operation : String) (o : Str × Str) : ClientFailure → S3Error
  | .clientError code =>
    if code ∈ absentCodes then missing o
    else .failed ("S3 ".toList ++ operation.toList ++ " failed for ".toList ++ objectName o)
  | .botoCoreError =>
    .failed ("S3 ".toList ++ operation.toList ++ " failed for ".toList ++ objectName o)

/-! ### Reading what was written -/

section Client

variable {σ : Type} (C : Client σ)

/-- The attempt, where a bucket or a key that is empty is not sent at all. -/
def checked (o : Str × Str) (attempt : Attempt) : Attempt :=
  if o.1 = [] ∨ o.2 = [] then .refused .botoCoreError else attempt

/-- A call that does not fail finds this object, or none. -/
def Client.Holds (s : σ) (o : Str × Str) : Option S3Object → Prop
  | some object => C.get s o none = .ok object ∧ C.head s o none = .ok object
  | none =>
    (∃ code ∈ absentCodes, C.get s o none = .error (.clientError code)) ∧
      ∃ code ∈ absentCodes, C.head s o none = .error (.clientError code)

/-- What is relied on: calls find the last write under their bucket and key that was carried out,
and nothing if there was none since the service was `empty`. -/
structure Client.ReadsWrites (empty : σ) (o : Str × Str) : Prop where
  /-- there is nothing at first, -/
  absent : C.Holds empty o none
  /-- a write is found, -/
  written : ∀ s object attempt, (checked o attempt).applied = true →
    C.Holds (C.write s o object attempt).1 o object
  /-- and others change nothing, nor those that are not carried out -/
  kept : ∀ s o' object attempt found, o' ≠ o ∨ (checked o attempt).applied = false →
    C.Holds s o found → C.Holds (C.write s o' object attempt).1 o found

/-! ## Writing -/

/-- A call of `put_object`, `upload_fileobj` or `delete_object` under `_s3_call`. -/
def Client.call (s : σ) (operation : String) (o : Str × Str) (object : Option S3Object)
    (attempt : Attempt) : σ × Except S3Error Unit :=
  match C.write s o object attempt with
  | (s', none) => (s', .ok ())
  | (s', some failure) => (s', .error (s3Call operation o failure))

variable (r : Reprs) (F : Floats) (P : Urlparse)

/-- `build_s3_uri(bucket, key)`, after the upload. -/
def uriOf (bucket key : Str) : Except S3Error (Option Str) :=
  match buildS3Uri r bucket key with
  | .ok uri => .ok (some uri)
  | .error e => .error (.invalidInput e.message)

/-- `text.encode("utf-8")`. -/
def utf8 (text : Str) : ByteArray := (String.ofList text).toByteArray

/-- `upload_json_to_s3(data, bucket, key)`. -/
def uploadJson (s : σ) (data : Value) (bucket key : Str) (attempt : Attempt) :
    σ × Except S3Error (Option Str) :=
  match dumpsUnicode .line data with
  | none => (s, .error .dumps)
  | some text =>
    match C.call s "upload_json" (bucket, key)
      (some ⟨utf8 text, "application/json".toList⟩) attempt with
    | (s', .ok ()) => (s', uriOf r bucket key)
    | (s', .error e) => (s', .error e)

/-- `upload_file_to_s3(file_obj, bucket, key, content_type=...)`. -/
def uploadFile (s : σ) (body : ByteArray) (contentType bucket key : Str) (attempt : Attempt) :
    σ × Except S3Error (Option Str) :=
  match C.call s "upload_file" (bucket, key) (some ⟨body, contentType⟩) attempt with
  | (s', .ok ()) => (s', uriOf r bucket key)
  | (s', .error e) => (s', .error e)

/-- `delete_s3_object(s3_uri)`. -/
def deleteS3Object (s : σ) (uri : Str) (attempt : Attempt) : σ × Except S3Error (Option Str) :=
  match parseS3Uri P uri with
  | .error e => (s, .error (.invalidInput e.message))
  | .ok o =>
    match C.call s "delete" o none attempt with
    | (s', .ok ()) => (s', .ok none)
    | (s', .error (.notFound _)) => (s', .ok none)
    | (s', .error e) => (s', .error e)

/-! ## Reading -/

/-- `client.get_object` or `client.head_object` under `_s3_call`, after `parse_s3_uri`. -/
def readObject (read : Str × Str → Option ClientFailure → Except ClientFailure S3Object)
    (operation : String) (uri : Str) (failure : Option ClientFailure) :
    Except S3Error ((Str × Str) × S3Object) :=
  match parseS3Uri P uri with
  | .error e => .error (.invalidInput e.message)
  | .ok o =>
    match read o failure with
    | .ok object => .ok (o, object)
    | .error e => .error (s3Call operation o e)

/-- `S3Exception("S3 object too large ...")`. -/
def tooLarge (o : Str × Str) (size maxSize : ℕ) : S3Error :=
  .failed ("S3 object too large (".toList ++ decimal size ++ " bytes, max ".toList ++
    decimal maxSize ++ "): ".toList ++ objectName o)

/-- `fetch_bytes_from_s3(s3_uri, max_size)`. -/
def fetchBytes (s : σ) (uri : Str) (maxSize : ℕ) (failure : Option ClientFailure) :
    Except S3Error (ByteArray × Str) :=
  match readObject P (C.get s) "fetch_bytes" uri failure with
  | .error e => .error e
  | .ok (o, object) =>
    if maxSize < object.body.size then .error (tooLarge o object.body.size maxSize)
    else .ok (object.body, object.contentType)

/-- `fetch_json_from_s3(s3_uri, max_size)`. -/
def fetchJson (s : σ) (uri : Str) (maxSize : ℕ) (failure : Option ClientFailure) :
    Except S3Error Value :=
  match readObject P (C.get s) "fetch_json" uri failure with
  | .error e => .error e
  | .ok (o, object) =>
    if maxSize < object.body.size then .error (tooLarge o object.body.size maxSize)
    else
      match object.body.utf8Decode? with
      | none => .error .unicode
      | some text =>
        match loads F text.toList with
        | .ok v => .ok v
        | .error .decode =>
          .error (.failed ("S3 object is not valid JSON: ".toList ++ objectName o))
        | .error .digits => .error .digits
        | .error .surrogate => .error .surrogate

/-- `object_exists(s3_uri)`. -/
def objectExists (s : σ) (uri : Str) (failure : Option ClientFailure) : Except S3Error Bool :=
  match readObject P (C.head s) "head" uri failure with
  | .ok _ => .ok true
  | .error (.notFound _) => .ok false
  | .error e => .error e

/-! ## Runs -/

/-- An attempt to write. -/
inductive Label : Type where
  /-- of `upload_json_to_s3` -/
  | uploadJson (data : Value) (bucket key : Str) (attempt : Attempt)
  /-- of `upload_file_to_s3` -/
  | uploadFile (body : ByteArray) (contentType bucket key : Str) (attempt : Attempt)
  /-- of `delete_s3_object` -/
  | delete (uri : Str) (attempt : Attempt)

/-- Carry it out. -/
def exec (s : σ) : Label → σ × Except S3Error (Option Str)
  | .uploadJson data bucket key attempt => uploadJson C r s data bucket key attempt
  | .uploadFile body contentType bucket key attempt =>
    uploadFile C r s body contentType bucket key attempt
  | .delete uri attempt => deleteS3Object C P s uri attempt

/-- The service as a machine. -/
def machine : Machine σ Label where
  step s l := some (exec C r P s l).1

end Client

/-! ## What the store holds -/

/-- What was put into the store. -/
inductive Holding : Type where
  /-- a JSON document -/
  | document (data : Value)
  /-- a file -/
  | file (body : ByteArray) (contentType : Str)

/-- The object it is stored as. -/
def Holding.object : Holding → S3Object
  | .document data => ⟨utf8 (encode .line 0 data), "application/json".toList⟩
  | .file body contentType => ⟨body, contentType⟩

/-- What an attempt leaves under a bucket and a key, `none` if it leaves them alone. -/
def Label.writes (P : Urlparse) (o : Str × Str) : Label → Option (Option Holding)
  | .uploadJson data bucket key attempt =>
    if (bucket, key) = o ∧ (checked o attempt).applied ∧ serializable data then
      some (some (.document data))
    else none
  | .uploadFile body contentType bucket key attempt =>
    if (bucket, key) = o ∧ (checked o attempt).applied then some (some (.file body contentType))
    else none
  | .delete uri attempt =>
    match parseS3Uri P uri with
    | .ok o' => if o' = o ∧ (checked o attempt).applied then some none else none
    | .error _ => none

/-- What the last attempt that was carried out has left there. -/
def held (P : Urlparse) (ls : List Label) (o : Str × Str) : Option Holding :=
  (ls.filterMap (Label.writes P o)).getLast?.join

section Held

variable {σ : Type} {C : Client σ} {r : Reprs} {P : Urlparse}

theorem Client.call_fst (s : σ) (operation : String) (o : Str × Str) (object : Option S3Object)
    (attempt : Attempt) :
    (C.call s operation o object attempt).1 = (C.write s o object attempt).1 := by
  unfold Client.call
  split <;> next h => rw [h]

theorem uploadFile_fst (s : σ) (body : ByteArray) (contentType bucket key : Str)
    (attempt : Attempt) :
    (uploadFile C r s body contentType bucket key attempt).1 =
      (C.write s (bucket, key) (some ⟨body, contentType⟩) attempt).1 := by
  rw [← C.call_fst s "upload_file"]
  unfold uploadFile
  split <;> next h => rw [h]

theorem deleteS3Object_fst (s : σ) {uri : Str} {o : Str × Str} (ho : parseS3Uri P uri = .ok o)
    (attempt : Attempt) :
    (deleteS3Object C P s uri attempt).1 = (C.write s o none attempt).1 := by
  rw [← C.call_fst s "delete"]
  unfold deleteS3Object
  simp only [ho]
  split <;> next h => rw [h]

theorem uploadJson_fst (s : σ) {data : Value} (hdata : serializable data = true)
    (bucket key : Str) (attempt : Attempt) :
    (uploadJson C r s data bucket key attempt).1 =
      (C.write s (bucket, key) (some (Holding.document data).object) attempt).1 := by
  rw [← C.call_fst s "upload_json"]
  simp only [uploadJson, dumpsUnicode, hdata, if_true]
  split <;> next h => exact (congrArg Prod.fst h).symm

theorem uploadJson_of_not_serializable (s : σ) {data : Value}
    (hdata : ¬ serializable data = true) (bucket key : Str) (attempt : Attempt) :
    (uploadJson C r s data bucket key attempt).1 = s := by
  rw [uploadJson, dumpsUnicode, if_neg hdata]

variable {empty : σ} {o : Str × Str} (hC : C.ReadsWrites empty o)
include hC

/-- What is written is found if it is written under this bucket and key, and the write is carried
out. -/
theorem holds_write {s : σ} {found : Option S3Object} (h : C.Holds s o found) (o' : Str × Str)
    (holding : Option Holding) (attempt : Attempt) :
    C.Holds (C.write s o' (holding.map Holding.object) attempt).1 o
      ((if o' = o ∧ (checked o attempt).applied = true then some holding else none).elim found
        (Option.map Holding.object)) := by
  split
  · next happlied =>
    obtain ⟨rfl, happlied⟩ := happlied
    exact hC.written s (holding.map Holding.object) attempt happlied
  · next hnot =>
    refine hC.kept s o' (holding.map Holding.object) attempt found ?_ h
    rw [not_and_or, Bool.not_eq_true] at hnot
    exact hnot

/-- **Step lemma.** An attempt leaves under a bucket and a key what it writes there. -/
theorem holds_exec {s : σ} {found : Option S3Object} (h : C.Holds s o found) (l : Label) :
    C.Holds (exec C r P s l).1 o ((l.writes P o).elim found (Option.map Holding.object)) := by
  cases l with
  | uploadJson data bucket key attempt =>
    by_cases hdata : serializable data = true
    · rw [exec, uploadJson_fst s hdata]
      simp only [Label.writes, hdata, and_true]
      exact holds_write hC h (bucket, key) (some (.document data)) attempt
    · rw [exec, uploadJson_of_not_serializable s hdata]
      rw [Label.writes, if_neg fun hcond => hdata hcond.2.2]
      exact h
  | uploadFile body contentType bucket key attempt =>
    rw [exec, uploadFile_fst]
    exact holds_write hC h (bucket, key) (some (.file body contentType)) attempt
  | delete uri attempt =>
    rcases hparse : parseS3Uri P uri with e | o'
    · simp only [exec, deleteS3Object, Label.writes, hparse]
      exact h
    · rw [exec, deleteS3Object_fst s hparse]
      simp only [Label.writes, hparse]
      exact holds_write hC h o' none attempt

omit hC in
/-- What is held after one more attempt. -/
theorem held_snoc (ls : List Label) (l : Label) (o : Str × Str) :
    held P (ls ++ [l]) o = (l.writes P o).elim (held P ls o) id := by
  rcases hwrites : l.writes P o with _ | holding
  · simp [held, List.filterMap_append, hwrites]
  · simp [held, List.filterMap_append, hwrites]

/-- **Run lemma.** What is held is found. -/
theorem holds_of_run {ls : List Label} {s : σ} (hrun : (machine C r P).run empty ls = some s) :
    C.Holds s o ((held P ls o).map Holding.object) := by
  refine Machine.run_history (J := fun ls s => C.Holds s o ((held P ls o).map Holding.object))
    hC.absent ?_ hrun
  intro ls before l after _ ih hstep
  obtain rfl : (exec C r P before l).1 = after := Option.some.inj hstep
  have hexec := holds_exec (r := r) (P := P) hC ih l
  rw [held_snoc]
  cases hwrites : l.writes P o with
  | none => rwa [hwrites] at hexec
  | some holding => rwa [hwrites] at hexec

end Held

/-! ## Reading what is held -/

/-- What is encoded is decoded. -/
theorem utf8Decode_utf8 (text : Str) : (utf8 text).utf8Decode? = some text.toArray := by
  rw [utf8, String.toByteArray_ofList, List.utf8Decode?_utf8Encode]

section Reading

variable {σ : Type} {C : Client σ} {r : Reprs} {F : Floats} {P : Urlparse} {s : σ} {uri : Str}
  {o : Str × Str}

/-- Where nothing is stored, nothing is found. -/
theorem readObject_absent (hparse : parseS3Uri P uri = .ok o)
    {read : Str × Str → Option ClientFailure → Except ClientFailure S3Object}
    (habsent : ∃ code ∈ absentCodes, read o none = .error (.clientError code))
    (operation : String) : readObject P read operation uri none = .error (missing o) := by
  obtain ⟨code, hcode, hread⟩ := habsent
  simp only [readObject, hparse, hread, s3Call, if_pos hcode]

theorem readObject_ok (hparse : parseS3Uri P uri = .ok o)
    {read : Str × Str → Option ClientFailure → Except ClientFailure S3Object} {object : S3Object}
    (hread : read o none = .ok object) (operation : String) :
    readObject P read operation uri none = .ok (o, object) := by
  simp only [readObject, hparse, hread]

/-- A JSON document is read as the value that it was. -/
theorem fetchJson_document (hparse : parseS3Uri P uri = .ok o) {v : Value} (hv : IsJson F v)
    (hget : C.get s o none = .ok (Holding.document v).object) (maxSize : ℕ) :
    fetchJson C F P s uri maxSize none =
      if maxSize < (utf8 (encode .line 0 v)).size then
        .error (tooLarge o (utf8 (encode .line 0 v)).size maxSize)
      else .ok v := by
  simp only [fetchJson, readObject_ok hparse hget, Holding.object, utf8Decode_utf8,
    loads_encode .line hv]

/-- Whatever the attempts to write, and whichever of them failed or lost their answers: through
its URI, an object with a plain key is what the last attempt that was carried out has left. -/
theorem read_last_upload (C : Client σ) (r : Reprs) (F : Floats) (P : Urlparse) (bucket : Bucket)
    {key : Str} (hkey : key ≠ []) (hplain : Plain P key) {uri : Str}
    (huri : buildS3Uri r bucket.name key = .ok uri) {empty : σ}
    (hC : C.ReadsWrites empty (bucket.name, key)) {ls : List Label} {s : σ}
    (hrun : (machine C r P).run empty ls = some s) (maxSize : ℕ) :
    objectExists C P s uri none = .ok (held P ls (bucket.name, key)).isSome ∧
    (held P ls (bucket.name, key) = none →
      fetchJson C F P s uri maxSize none = .error (missing (bucket.name, key)) ∧
      fetchBytes C P s uri maxSize none = .error (missing (bucket.name, key))) ∧
    (∀ body contentType, held P ls (bucket.name, key) = some (.file body contentType) →
      fetchBytes C P s uri maxSize none =
        if maxSize < body.size then .error (tooLarge (bucket.name, key) body.size maxSize)
        else .ok (body, contentType)) ∧
    (∀ v, held P ls (bucket.name, key) = some (.document v) → IsJson F v →
      fetchJson C F P s uri maxSize none =
        if maxSize < (utf8 (encode .line 0 v)).size then
          .error (tooLarge (bucket.name, key) (utf8 (encode .line 0 v)).size maxSize)
        else .ok v) := by
  have hparse : parseS3Uri P uri = .ok (bucket.name, key) := by
    rw [parseS3Uri_buildS3Uri huri, hplain.readKey_eq, if_neg hkey]
  have hholds := holds_of_run hC hrun
  refine ⟨?_, ?_, ?_, ?_⟩
  · rcases hheld : held P ls (bucket.name, key) with _ | holding
    · rw [hheld] at hholds
      simp only [objectExists, readObject_absent hparse hholds.2]
      rfl
    · rw [hheld] at hholds
      simp only [objectExists, readObject_ok hparse hholds.2]
      rfl
  · intro hnone
    rw [hnone] at hholds
    refine ⟨?_, ?_⟩
    · simp only [fetchJson, readObject_absent hparse hholds.1]
    · simp only [fetchBytes, readObject_absent hparse hholds.1]
  · intro body contentType hfile
    rw [hfile] at hholds
    simp only [fetchBytes, readObject_ok hparse hholds.1, Holding.object]
  · intro v hdocument hv
    rw [hdocument] at hholds
    exact fetchJson_document hparse hv hholds.1 maxSize

end Reading

/-! ## A store in memory -/

/-- Objects by bucket and key. -/
abbrev Objects : Type := Str × Str → Option S3Object

/-- What a call finds, or the code of the operation for nothing. -/
def Objects.find (code : String) (objects : Objects) (o : Str × Str)
    (failure : Option ClientFailure) : Except ClientFailure S3Object :=
  match failure, objects o with
  | some failure, _ => .error failure
  | none, some object => .ok object
  | none, none => .error (.clientError code.toList)

/-- A client of them. -/
def Client.memory : Client Objects where
  write objects o object attempt :=
    (if (checked o attempt).applied then Function.update objects o object else objects,
      (checked o attempt).failure)
  get := Objects.find "NoSuchKey"
  head := Objects.find "404"

theorem holds_memory (objects : Objects) (o : Str × Str) :
    Client.memory.Holds objects o (objects o) := by
  cases hfound : objects o with
  | none =>
    refine ⟨⟨"NoSuchKey".toList, by decide, ?_⟩, "404".toList, by decide, ?_⟩
    · simp only [Client.memory, Objects.find, hfound]
    · simp only [Client.memory, Objects.find, hfound]
  | some object =>
    refine ⟨?_, ?_⟩
    · simp only [Client.memory, Objects.find, hfound]
    · simp only [Client.memory, Objects.find, hfound]

theorem holds_memory_iff {objects : Objects} {o : Str × Str} {found : Option S3Object} :
    Client.memory.Holds objects o found ↔ objects o = found := by
  refine ⟨?_, ?_⟩
  · intro h
    have hsame := holds_memory objects o
    cases hfound : objects o with
    | none =>
      rw [hfound] at hsame
      cases found with
      | none => rfl
      | some object =>
        obtain ⟨⟨code, -, hnone⟩, -⟩ := hsame
        cases hnone.symm.trans h.1
    | some object =>
      rw [hfound] at hsame
      cases found with
      | none =>
        obtain ⟨⟨code, -, hnone⟩, -⟩ := h
        cases hnone.symm.trans hsame.1
      | some object' =>
        rw [Except.ok.inj (hsame.1.symm.trans h.1)]
  · rintro rfl
    exact holds_memory objects o

theorem readsWrites_memory (o : Str × Str) : Client.memory.ReadsWrites (fun _ => none) o where
  absent := holds_memory_iff.mpr rfl
  written objects object attempt happlied := by
    rw [holds_memory_iff]
    simp only [Client.memory, happlied, if_true, Function.update_self]
  kept objects o' object attempt found hother h := by
    rw [holds_memory_iff] at h ⊢
    simp only [Client.memory]
    split
    · next happlied =>
      rcases hother with hne | hnot
      · rw [Function.update_of_ne hne.symm, h]
      · rcases eq_or_ne o' o with rfl | hne
        · rw [hnot] at happlied
          cases happlied
        · rw [Function.update_of_ne hne.symm, h]
    · exact h

/-- A document. -/
def report : Value := .dict [("name".toList, .str "Zürich \"1\"".toList)]

/-- Its upload is carried out, though the answer is lost; a file that would replace it is
refused. -/
def attempts : List Label :=
  [.uploadFile ByteArray.empty "text/plain".toList "media".toList "2026/report.json".toList .done,
    .uploadJson report "media".toList "2026/report.json".toList (.lost .botoCoreError),
    .uploadFile ByteArray.empty "text/plain".toList "media".toList "2026/report.json".toList
      (.refused (.clientError "AccessDenied".toList))]

theorem isJson_report : IsJson Floats.plain report := by
  refine .dict _ (by decide) ?_
  intro x hx
  obtain rfl := List.mem_singleton.mp hx
  exact .str _

theorem held_attempts :
    held Urlparse.plain attempts ("media".toList, "2026/report.json".toList) =
      some (.document report) := by
  rfl

theorem size_report : (utf8 (encode .line 0 report)).size ≤ 10 * 1024 * 1024 := by
  decide +kernel

/-- The document is read. -/
theorem report_read_after_lost_upload : ∃ objects,
    (machine Client.memory ⟨fun _ => true, fun _ _ => []⟩ Urlparse.plain).run (fun _ => none)
      attempts = some objects ∧
    fetchJson Client.memory Floats.plain Urlparse.plain objects
      "s3://media/2026/report.json".toList (10 * 1024 * 1024) none = .ok report := by
  have hplain : Plain Urlparse.plain "2026/report.json".toList :=
    ⟨by decide, Str.forall_mem_of_all rfl⟩
  have huri : buildS3Uri ⟨fun _ => true, fun _ _ => []⟩ exampleBucket.name
      "2026/report.json".toList = .ok "s3://media/2026/report.json".toList := rfl
  obtain ⟨objects, hrun⟩ : ∃ objects, (machine Client.memory ⟨fun _ => true, fun _ _ => []⟩
      Urlparse.plain).run (fun _ => none) attempts = some objects := ⟨_, rfl⟩
  obtain ⟨-, -, -, hdocument⟩ := read_last_upload Client.memory _ Floats.plain Urlparse.plain
    exampleBucket (List.cons_ne_nil _ _) hplain huri (readsWrites_memory _) hrun
    (10 * 1024 * 1024)
  have hread := hdocument report held_attempts isJson_report
  rw [if_neg (Nat.not_lt.mpr size_report)] at hread
  exact ⟨objects, hrun, hread⟩

end S3

end DjangoBoilerplate
