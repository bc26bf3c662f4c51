import DjangoBoilerplate.Repr

/-!
# S3 URIs

`apps/core/utils/s3.py` writes an object under a bucket and a key, and returns a URI for it that
`parse_s3_uri` takes apart again with `urlparse`. The URI is built from the key without leading
slashes, and a URL gives some characters a meaning: `uploaded_found_iff` says which keys come
back.
-/

namespace DjangoBoilerplate

namespace S3

/-! ## URLs -/

/-- What `urlparse` drops from a URL before it reads it: nothing, or in newer versions of Python
tabs and line breaks. -/
structure Urlparse : Type where
  /-- is the character dropped? -/
  drops : Char → Bool
  /-- others never are -/
  drops_only : ∀ c, drops c = true → c = '\t' ∨ c = '\n' ∨ c = '\r'

/-- The parts of a URL that are read. -/
structure Parsed : Type where
  /-- `scheme` -/
  scheme : Str
  /-- `netloc` -/
  netloc : Str
  /-- `path` -/
  path : Str

/-- The characters of a scheme after its first letter. -/
def schemeChar (c : Char) : Bool := c.isAlphanum || c == '+' || c == '-' || c == '.'

/-- The scheme and the rest, if what comes before the first colon can be one. -/
def splitScheme (url : Str) : Str × Str :=
  match Str.splitOnce ':' url with
  | some (c :: scheme, rest) =>
    if c.isAlpha && scheme.all schemeChar then ((c :: scheme).map asciiLower, rest) else ([], url)
  | _ => ([], url)

/-- The host part ends at one of these. -/
def endsNetloc (c : Char) : Bool := c == '/' || c == '?' || c == '#'

/-- The path ends at the query or the fragment. -/
def endsPath (c : Char) : Bool := c == '?' || c == '#'

/-- `urlparse(url)`. -/
def Urlparse.parse (P : Urlparse) (url : Str) : Parsed :=
  let (scheme, rest) := splitScheme (url.filter fun c => !P.drops c)
  match rest with
  | '/' :: '/' :: rest =>
    ⟨scheme, rest.takeWhile fun c => !endsNetloc c,
      (rest.dropWhile fun c => !endsNetloc c).takeWhile fun c => !endsPath c⟩
  | rest => ⟨scheme, [], rest.takeWhile fun c => !endsPath c⟩

/-! ## URIs of objects -/

/-- `InvalidInputError`, with its message. -/
structure InvalidInput : Type where
  /-- the message -/
  message : Str
deriving DecidableEq

/-- `s.lstrip("/")`. -/
def lstripSlash (s : Str) : Str := s.dropWhile fun c => c == '/'

/-- `parse_s3_uri(s3_uri)`. -/
def parseS3Uri (P : Urlparse) (uri : Str) : Except InvalidInput (Str × Str) :=
  let parsed := P.parse uri
  if parsed.scheme ≠ "s3".toList ∨ parsed.netloc = [] then
    .error ⟨"Invalid S3 URI format: ".toList ++ uri⟩
  else if lstripSlash parsed.path = [] then
    .error ⟨"S3 URI is missing object key: ".toList ++ uri⟩
  else .ok (parsed.netloc, lstripSlash parsed.path)

/-- `build_s3_uri(bucket, key)`. -/
def buildS3Uri (r : Reprs) (bucket key : Str) : Except InvalidInput Str :=
  if bucket = [] ∨ key = [] then
    .error ⟨"Both bucket and key required (got bucket=".toList ++ strRepr r bucket ++
      ", key=".toList ++ strRepr r key ++ ").".toList⟩
  else .ok ("s3://".toList ++ bucket ++ '/' :: lstripSlash key)

/-- `upload_json_to_s3` and `upload_file_to_s3`, where the client accepts the object: what it is
written under, and what is returned. -/
def upload (r : Reprs) (bucket key : Str) : (Str × Str) × Except InvalidInput Str :=
  ((bucket, key), buildS3Uri r bucket key)

/-- The characters of bucket names. -/
def bucketChar (c : Char) : Bool := c.isLower || c.isDigit || c == '.' || c == '-'

/-- A bucket name. -/
structure Bucket : Type where
  /-- the name -/
  name : Str
  /-- lower-case letters, digits, dots and dashes -/
  chars : ∀ c ∈ name, bucketChar c = true
  /-- at least one -/
  ne_nil : name ≠ []

/-! ## Reading a URI back -/

theorem endsNetloc_iff {c : Char} : endsNetloc c = true ↔ c = '/' ∨ c = '?' ∨ c = '#' := by
  simp [endsNetloc, or_assoc]

theorem endsPath_iff {c : Char} : endsPath c = true ↔ c = '?' ∨ c = '#' := by
  simp [endsPath]

/-- A bucket name has none of the other characters. -/
theorem Bucket.ne (bucket : Bucket) {c x : Char} (hc : c ∈ bucket.name)
    (hx : bucketChar x = false) : c ≠ x := by
  rintro rfl
  rw [bucket.chars c hc] at hx
  cases hx

theorem Bucket.not_endsNetloc (bucket : Bucket) {c : Char} (hc : c ∈ bucket.name) :
    endsNetloc c = false := by
  rw [← Bool.not_eq_true, endsNetloc_iff]
  rintro (h | h | h)
  · exact bucket.ne hc rfl h
  · exact bucket.ne hc rfl h
  · exact bucket.ne hc rfl h

/-- A printable character is not dropped. -/
theorem Urlparse.drops_eq_false (P : Urlparse) {c : Char}
    (hc : c ≠ '\t' ∧ c ≠ '\n' ∧ c ≠ '\r') : P.drops c = false := by
  rw [← Bool.not_eq_true]
  intro hdrops
  obtain ⟨htab, hnewline, hreturn⟩ := hc
  rcases P.drops_only c hdrops with h | h | h
  · exact htab h
  · exact hnewline h
  · exact hreturn h

theorem Bucket.not_drops (bucket : Bucket) (P : Urlparse) {c : Char} (hc : c ∈ bucket.name) :
    P.drops c = false :=
  P.drops_eq_false ⟨bucket.ne hc rfl, bucket.ne hc rfl, bucket.ne hc rfl⟩

/-- What is read of a URI: the bucket, and the key up to what ends a path. -/
theorem parse_uri (P : Urlparse) (bucket : Bucket) (key : Str) :
    P.parse ("s3://".toList ++ bucket.name ++ '/' :: key) =
      ⟨"s3".toList, bucket.name,
        '/' :: (key.filter fun c => !P.drops c).takeWhile fun c => !endsPath c⟩ := by
  have hprintable : ∀ c ∈ "s3://".toList, c ≠ '\t' ∧ c ≠ '\n' ∧ c ≠ '\r' :=
    Str.forall_mem_of_all rfl
  have hlead : ("s3://".toList.filter fun c => !P.drops c) = "s3://".toList := by
    rw [List.filter_eq_self]
    intro c hc
    rw [P.drops_eq_false (hprintable c hc), Bool.not_false]
  have hname : (bucket.name.filter fun c => !P.drops c) = bucket.name := by
    rw [List.filter_eq_self]
    intro c hc
    rw [bucket.not_drops P hc, Bool.not_false]
  have hslash : P.drops '/' = false := P.drops_eq_false (by decide)
  have hfilter : (("s3://".toList ++ bucket.name ++ '/' :: key).filter fun c => !P.drops c) =
      "s3".toList ++ ':' :: ('/' :: '/' :: (bucket.name ++
        '/' :: key.filter fun c => !P.drops c)) := by
    rw [List.filter_append, List.filter_append, hlead, hname, List.filter_cons, hslash]
    simp
  have hnetloc : ∀ c ∈ bucket.name, (!endsNetloc c) = true := by
    intro c hc
    rw [bucket.not_endsNetloc hc, Bool.not_false]
  have hscheme : splitScheme ("s3".toList ++ ':' :: ('/' :: '/' :: (bucket.name ++
      '/' :: key.filter fun c => !P.drops c))) =
        ("s3".toList, '/' :: '/' :: (bucket.name ++ '/' :: key.filter fun c => !P.drops c)) := by
    rw [splitScheme, Str.splitOnce_append_cons (by decide)]
    rfl
  rw [Urlparse.parse, hfilter, hscheme]
  simp only [List.takeWhile_append_of_pos hnetloc, List.dropWhile_append_of_pos hnetloc]
  simp [endsNetloc, endsPath]

/-- The key as it is read from its URI. -/
def readKey (P : Urlparse) (key : Str) : Str :=
  lstripSlash (((lstripSlash key).filter fun c => !P.drops c).takeWhile fun c => !endsPath c)

/-- `parse_s3_uri` of the URI of an object. -/
theorem parseS3Uri_buildS3Uri {r : Reprs} {P : Urlparse} {bucket : Bucket} {key uri : Str}
    (h : buildS3Uri r bucket.name key = .ok uri) :
    parseS3Uri P uri =
      if readKey P key = [] then .error ⟨"S3 URI is missing object key: ".toList ++ uri⟩
      else .ok (bucket.name, readKey P key) := by
  have hfound : ¬ ("s3".toList ≠ "s3".toList ∨ bucket.name = []) := by
    rintro (h | h)
    · exact h rfl
    · exact bucket.ne_nil h
  rw [buildS3Uri] at h
  split at h
  · cases h
  · cases h
    rw [parseS3Uri, parse_uri]
    simp only [if_neg hfound]
    rfl

/-- A key that a URL keeps as it is. -/
structure Plain (P : Urlparse) (key : Str) : Prop where
  /-- it does not begin with a slash -/
  head : key.head? ≠ some '/'
  /-- and has no character with a meaning of its own -/
  chars : ∀ c ∈ key, c ≠ '?' ∧ c ≠ '#' ∧ P.drops c = false

/-! ## Which keys come back -/

theorem lstripSlash_of_head {key : Str} (h : key.head? ≠ some '/') : lstripSlash key = key := by
  cases key with
  | nil => rfl
  | cons c key =>
    have hc : (c == '/') = false := beq_eq_false_iff_ne.mpr fun heq => h (by rw [heq]; rfl)
    rw [lstripSlash, List.dropWhile_cons, hc]
    rfl

theorem head_lstripSlash (key : Str) : (lstripSlash key).head? ≠ some '/' := by
  intro h
  have hne : lstripSlash key ≠ [] := by
    intro hnil
    rw [hnil] at h
    cases h
  rw [List.head?_eq_some_head hne] at h
  have hnot := List.head_dropWhile_not (fun c => c == '/') hne
  rw [show (List.dropWhile (fun c => c == '/') key).head hne = '/' from Option.some.inj h] at hnot
  cases hnot

/-- A plain key is read as it is. -/
theorem Plain.readKey_eq {P : Urlparse} {key : Str} (h : Plain P key) : readKey P key = key := by
  have hfilter : (key.filter fun c => !P.drops c) = key := by
    rw [List.filter_eq_self]
    intro c hc
    rw [(h.chars c hc).2.2, Bool.not_false]
  have htake : (key.takeWhile fun c => !endsPath c) = key := by
    rw [List.takeWhile_eq_self_iff]
    intro c hc
    rw [Bool.not_eq_true', ← Bool.not_eq_true, endsPath_iff]
    rintro (rfl | rfl)
    · exact (h.chars _ hc).1 rfl
    · exact (h.chars _ hc).2.1 rfl
  rw [readKey, lstripSlash_of_head h.head, hfilter, htake, lstripSlash_of_head h.head]

/-- Reading only ever leaves characters out, so a key that is read as it is had none to leave
out. -/
theorem plain_of_readKey_eq {P : Urlparse} {key : Str} (h : readKey P key = key) :
    Plain P key := by
  refine ⟨?_, ?_⟩
  · rw [← h]
    exact head_lstripSlash _
  · intro c hc
    rw [← h] at hc
    have hread := (List.dropWhile_sublist _).subset hc
    have hends : endsPath c = false := by simpa using List.mem_takeWhile_imp hread
    have hkept := (List.mem_filter.mp ((List.takeWhile_sublist _).subset hread)).2
    rw [← Bool.not_eq_true, endsPath_iff] at hends
    exact ⟨fun heq => hends (.inl heq), fun heq => hends (.inr heq), by simpa using hkept⟩

/-- A bucket and a key have a URI. -/
theorem buildS3Uri_ok (r : Reprs) (bucket : Bucket) {key : Str} (hkey : key ≠ []) :
    buildS3Uri r bucket.name key =
      .ok ("s3://".toList ++ bucket.name ++ '/' :: lstripSlash key) := by
  rw [buildS3Uri, if_neg]
  rintro (h | h)
  · exact bucket.ne_nil h
  · exact hkey h

/-- The URI of a plain key leads back to it. -/
theorem Plain.roundTrip {P : Urlparse} {key : Str} (h : Plain P key) (hkey : key ≠ [])
    (r : Reprs) (bucket : Bucket) :
    ∃ uri, buildS3Uri r bucket.name key = .ok uri ∧ parseS3Uri P uri = .ok (bucket.name, key) := by
  refine ⟨_, buildS3Uri_ok r bucket hkey, ?_⟩
  rw [parseS3Uri_buildS3Uri (buildS3Uri_ok r bucket hkey), h.readKey_eq, if_neg hkey]

/-- An uploaded object is found by the URI that is returned for it exactly if its key begins with
no slash and has neither a `?`, a `#` nor a character that `urlparse` drops. -/
theorem uploaded_found_iff (r : Reprs) (P : Urlparse) (bucket : Bucket) {key : Str}
    (hkey : key ≠ []) :
    (∃ uri, (upload r bucket.name key).2 = .ok uri ∧
      parseS3Uri P uri = .ok (upload r bucket.name key).1) ↔ Plain P key := by
  constructor
  · rintro ⟨uri, huri, hparse⟩
    rw [parseS3Uri_buildS3Uri huri] at hparse
    split at hparse
    · cases hparse
    · injection hparse with hparse
      injection hparse with _ hread
      exact plain_of_readKey_eq hread
  · intro h
    exact h.roundTrip hkey r bucket

/-- A `urlparse` that drops nothing. -/
def Urlparse.plain : Urlparse where
  drops _ := false
  drops_only _ h := absurd h Bool.false_ne_true

/-- A bucket. -/
def exampleBucket : Bucket where
  name := "media".toList
  chars := Str.forall_mem_of_all rfl
  ne_nil := List.cons_ne_nil _ _

theorem uploaded_found_report :
    ∃ uri, (upload ⟨fun _ => true, fun _ _ => []⟩ exampleBucket.name
        "2026/report.json".toList).2 = .ok uri ∧
      parseS3Uri Urlparse.plain uri = .ok (upload ⟨fun _ => true, fun _ _ => []⟩
        exampleBucket.name "2026/report.json".toList).1 :=
  (uploaded_found_iff _ _ exampleBucket (List.cons_ne_nil _ _)).mpr
    ⟨by decide, Str.forall_mem_of_all rfl⟩

/-- What is uploaded as `report?.json` is looked for as `report`. -/
theorem uploaded_not_found :
    ¬ ∀ (r : Reprs) (bucket : Bucket) (key : Str), key ≠ [] →
      ∃ uri, (upload r bucket.name key).2 = .ok uri ∧
        parseS3Uri Urlparse.plain uri = .ok (upload r bucket.name key).1 := by
  intro halways
  obtain ⟨uri, huri, hparse⟩ := halways ⟨fun _ => true, fun _ _ => []⟩ exampleBucket
    "report?.json".toList (List.cons_ne_nil _ _)
  have hread : parseS3Uri Urlparse.plain "s3://media/report?.json".toList =
      .ok ("media".toList, "report".toList) := by
    rfl
  cases huri
  rw [show "s3://".toList ++ exampleBucket.name ++ '/' :: lstripSlash "report?.json".toList =
    "s3://media/report?.json".toList from rfl, hread] at hparse
  injection hparse with hparse
  injection hparse with _ hkey
  exact absurd hkey (by decide)

end S3

end DjangoBoilerplate
