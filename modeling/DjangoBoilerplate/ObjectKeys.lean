import DjangoBoilerplate.S3Uri

/-!
# Object keys

`generate_object_key` makes the key of an upload from a prefix, the month, a fresh UUID and what is
left of the client's file name. Whatever the file name is, the key is made of harmless characters
only, so `generateObjectKey_safe` finds it again by its URI.
-/

namespace DjangoBoilerplate

namespace S3

/-! ## The generator -/

/-- The characters `_FILENAME_SANITIZE_RE` leaves alone: `[A-Za-z0-9._-]`. -/
def safeChar (c : Char) : Bool := c.isAlphanum || c == '.' || c == '_' || c == '-'

/-- The characters stripped from both ends of a name: `"-._"`. -/
def edgeChar (c : Char) : Bool := c == '-' || c == '.' || c == '_'

/-- `_FILENAME_SANITIZE_RE.sub("-", s)`, inside a run of unsafe characters or outside. -/
def sanitize (inRun : Bool) : Str → Str
  | [] => []
  | c :: s =>
    if safeChar c then c :: sanitize false s
    else if inRun then sanitize true s
    else '-' :: sanitize true s

/-- `datetime.now(UTC)`, as far as it is formatted. -/
structure Now : Type where
  /-- `%Y` -/
  year : ℕ
  /-- `%m` -/
  month : ℕ

/-- A number with zeros in front. -/
def padded (width n : ℕ) : Str :=
  List.replicate (width - (decimal n).length) '0' ++ decimal n

/-- `str(uuid.uuid4())`. -/
structure Uuid : Type where
  /-- the text -/
  text : Str
  /-- hexadecimal digits and dashes -/
  chars : ∀ c ∈ text, c.isDigit = true ∨ 'a' ≤ c ∧ c ≤ 'f' ∨ c = '-'

/-- The file name without its directories and without unsafe characters. -/
def cleanedName (filename : Str) : Str :=
  let base := (Str.afterLast '\\' (Str.afterLast '/' filename)).strip.orDefault "file".toList
  ((sanitize false base).stripBy edgeChar).orDefault "file".toList

/-- Appending the extension unless it is there already. -/
def withExt (u : Casing) (cleaned : Str) : Option Str → Str
  | none => cleaned
  | some ext =>
    let stripped := ext.dropWhile fun c => c == '.'
    if ext ≠ [] ∧ ¬ '.' :: (u.lower ext).dropWhile (fun c => c == '.') <:+ u.lower cleaned then
      cleaned ++ '.' :: stripped
    else cleaned

/-- `generate_object_key(prefix, filename, ext=ext)`. -/
def generateObjectKey (u : Casing) (now : Now) (uuid : Uuid) (keyPrefix filename : Str)
    (ext : Option Str) : Str :=
  let cleaned := withExt u (cleanedName filename) ext
  let folder := (keyPrefix.stripBy fun c => c == '/').orDefault "assets".toList
  folder ++ '/' :: padded 4 now.year ++ '/' :: padded 2 now.month ++ '/' ::
    (uuid.text ++ "__".toList ++ cleaned)

/-! ## The name -/

/-- A name that is safe in a key. -/
structure SafeName (name : Str) : Prop where
  /-- it is not empty -/
  ne_nil : name ≠ []
  /-- it has safe characters only -/
  chars : ∀ c ∈ name, safeChar c = true
  /-- it does not begin with punctuation -/
  head : ∀ c, name.head? = some c → edgeChar c = false
  /-- nor end with it -/
  last : ∀ c, name.getLast? = some c → edgeChar c = false

theorem sanitize_safe {inRun : Bool} {s : Str} :
    ∀ c ∈ sanitize inRun s, safeChar c = true := by
  induction s generalizing inRun with
  | nil =>
    intro c hc
    cases hc
  | cons x s ih =>
    intro c hc
    rw [sanitize] at hc
    split at hc
    · next hx =>
      rcases List.mem_cons.mp hc with rfl | hc
      · exact hx
      · exact ih c hc
    · split at hc
      · exact ih c hc
      · rcases List.mem_cons.mp hc with rfl | hc
        · rfl
        · exact ih c hc

/-- What is left of a string of safe characters is a name, if anything is left. -/
theorem safeName_stripBy {s : Str} (hsafe : ∀ c ∈ s, safeChar c = true)
    (h : s.stripBy edgeChar ≠ []) : SafeName (s.stripBy edgeChar) where
  ne_nil := h
  chars c hc := hsafe c (Str.stripBy_subset hc)
  head c hc := by
    rw [List.head?_eq_some_head h] at hc
    rw [← Option.some.inj hc]
    exact Str.head_stripBy h
  last c hc := by
    rw [List.getLast?_eq_some_getLast h] at hc
    rw [← Option.some.inj hc]
    exact Str.getLast_stripBy h

/-- Every file name leaves a safe one. -/
theorem cleanedName_safe (filename : Str) : SafeName (cleanedName filename) := by
  rw [cleanedName, Str.orDefault]
  split
  · refine ⟨List.cons_ne_nil _ _, Str.forall_mem_of_all rfl, ?_, ?_⟩
    · intro c hc
      cases hc
      rfl
    · intro c hc
      cases hc
      rfl
  · next h => exact safeName_stripBy sanitize_safe h

/-! ## The key -/

/-- The characters of a generated key. -/
def keyChar (c : Char) : Bool := safeChar c || c == '/'

theorem keyChar_of_safeChar {c : Char} (h : safeChar c = true) : keyChar c = true := by
  rw [keyChar, h, Bool.true_or]

theorem safeChar_of_isDigit {c : Char} (h : c.isDigit = true) : safeChar c = true := by
  simp [safeChar, Char.isAlphanum, h]

theorem padded_safe {width n : ℕ} : ∀ c ∈ padded width n, safeChar c = true := by
  intro c hc
  rcases List.mem_append.mp hc with hc | hc
  · rw [List.eq_of_mem_replicate hc]
    rfl
  · exact safeChar_of_isDigit (isDigit_of_mem_decimal hc)

theorem Uuid.safe (uuid : Uuid) : ∀ c ∈ uuid.text, safeChar c = true := by
  intro c hc
  rcases uuid.chars c hc with hdigit | ⟨hfrom, hto⟩ | rfl
  · exact safeChar_of_isDigit hdigit
  · have hletter : c.isLower = true :=
      Bool.and_eq_true_iff.mpr
        ⟨decide_eq_true hfrom, decide_eq_true (Char.le_trans hto (by decide))⟩
    have halpha : c.isAlpha = true := Bool.or_eq_true_iff.mpr (.inr hletter)
    simp [safeChar, Char.isAlphanum, halpha]
  · rfl

/-- The last segment has safe characters only. -/
theorem segment_safe (uuid : Uuid) (filename : Str) :
    ∀ c ∈ uuid.text ++ "__".toList ++ cleanedName filename, safeChar c = true := by
  have hunderscores : ∀ c ∈ "__".toList, safeChar c = true := Str.forall_mem_of_all rfl
  intro c hc
  rcases List.mem_append.mp hc with hc | hc
  · rcases List.mem_append.mp hc with hc | hc
    · exact uuid.safe c hc
    · exact hunderscores c hc
  · exact (cleanedName_safe filename).chars c hc

theorem not_mem_of_safe {s : Str} (h : ∀ c ∈ s, safeChar c = true) : '/' ∉ s := by
  intro hmem
  cases h '/' hmem

/-- The folder begins with something else than a slash. -/
theorem folder_head (keyPrefix : Str) :
    ∃ c folder, (keyPrefix.stripBy fun c => c == '/').orDefault "assets".toList = c :: folder ∧
      c ≠ '/' := by
  rw [Str.orDefault]
  split
  · exact ⟨'a', "ssets".toList, rfl, by decide⟩
  · next h =>
    refine ⟨_, _, (List.cons_head_tail h).symm, ?_⟩
    exact beq_eq_false_iff_ne.mp (Str.head_stripBy h)

theorem folder_keyChar {keyPrefix : Str} (h : ∀ c ∈ keyPrefix, keyChar c = true) :
    ∀ c ∈ (keyPrefix.stripBy fun c => c == '/').orDefault "assets".toList, keyChar c = true := by
  rw [Str.orDefault]
  split
  · exact Str.forall_mem_of_all rfl
  · intro c hc
    exact h c (Str.stripBy_subset hc)

section Key

variable (u : Casing) (now : Now) (uuid : Uuid) (keyPrefix filename : Str)

theorem generateObjectKey_head (ext : Option Str) :
    (generateObjectKey u now uuid keyPrefix filename ext).head? ≠ some '/' := by
  obtain ⟨c, folder, hfolder, hc⟩ := folder_head keyPrefix
  rw [generateObjectKey, hfolder]
  intro h
  exact hc (Option.some.inj h)

/-- The last segment of a key is the UUID and the name. -/
theorem afterLast_generateObjectKey :
    Str.afterLast '/' (generateObjectKey u now uuid keyPrefix filename none) =
      uuid.text ++ "__".toList ++ cleanedName filename := by
  rw [generateObjectKey]
  exact Str.afterLast_append_cons _ (not_mem_of_safe (segment_safe uuid filename))

variable {keyPrefix}

/-- A key has safe characters and slashes only. -/
theorem generateObjectKey_keyChar (hchars : ∀ c ∈ keyPrefix, keyChar c = true) :
    ∀ c ∈ generateObjectKey u now uuid keyPrefix filename none, keyChar c = true := by
  intro c hc
  rw [generateObjectKey, List.mem_append, List.mem_cons, List.mem_append, List.mem_cons,
    List.mem_append, List.mem_cons] at hc
  rcases hc with ((hc | rfl | hc) | rfl | hc) | rfl | hc
  · exact folder_keyChar hchars c hc
  · rfl
  · exact keyChar_of_safeChar (padded_safe c hc)
  · rfl
  · exact keyChar_of_safeChar (padded_safe c hc)
  · rfl
  · exact keyChar_of_safeChar (segment_safe uuid filename c hc)

/-- So it is one that a URI leads back to. -/
theorem generateObjectKey_plain (hchars : ∀ c ∈ keyPrefix, keyChar c = true) (P : Urlparse) :
    Plain P (generateObjectKey u now uuid keyPrefix filename none) where
  head := generateObjectKey_head u now uuid keyPrefix filename none
  chars c hc := by
    have hkey := generateObjectKey_keyChar u now uuid filename hchars c hc
    refine ⟨?_, ?_, P.drops_eq_false ⟨?_, ?_, ?_⟩⟩
    all_goals
      rintro rfl
      cases hkey

end Key

/-- Both functions on a key, in every bucket. -/
def ComesBack (key : Str) : Prop :=
  ∀ (r : Reprs) (P : Urlparse) (bucket : Bucket),
    ∃ uri, buildS3Uri r bucket.name key = .ok uri ∧ parseS3Uri P uri = .ok (bucket.name, key)

/-- Whatever the file name is, the generated key does not begin with a slash, its last segment is
the UUID and a safe name, and its URI in any bucket leads back to it. -/
theorem generateObjectKey_safe (u : Casing) (now : Now) (uuid : Uuid) (filename : Str)
    {keyPrefix : Str} (hchars : ∀ c ∈ keyPrefix, keyChar c = true) :
    (generateObjectKey u now uuid keyPrefix filename none).head? ≠ some '/' ∧
    (∃ name, Str.afterLast '/' (generateObjectKey u now uuid keyPrefix filename none) =
      uuid.text ++ "__".toList ++ name ∧ SafeName name) ∧
    ComesBack (generateObjectKey u now uuid keyPrefix filename none) := by
  refine ⟨?_, ?_, ?_⟩
  · exact generateObjectKey_head u now uuid keyPrefix filename none
  · exact ⟨cleanedName filename, afterLast_generateObjectKey u now uuid keyPrefix filename,
      cleanedName_safe filename⟩
  · intro r P bucket
    refine (generateObjectKey_plain u now uuid filename hchars P).roundTrip ?_ r bucket
    obtain ⟨c, folder, hfolder, -⟩ := folder_head keyPrefix
    rw [generateObjectKey, hfolder]
    exact List.cons_ne_nil _ _

/-- A UUID. -/
def exampleUuid : Uuid where
  text := "0d9f3c6e-2b41-4c7a-9e58-1f0a6b7c8d9e".toList
  chars := Str.forall_mem_of_all rfl

theorem generateObjectKey_safe_upload :
    generateObjectKey Casing.basic ⟨2026, 4⟩ exampleUuid "uploads/".toList
        "C:\\docs\\..my résumé?.pdf".toList none =
      "uploads/2026/04/0d9f3c6e-2b41-4c7a-9e58-1f0a6b7c8d9e__my-r-sum-.pdf".toList ∧
    ComesBack (generateObjectKey Casing.basic ⟨2026, 4⟩ exampleUuid "uploads/".toList
      "C:\\docs\\..my résumé?.pdf".toList none) :=
  ⟨by decide, (generateObjectKey_safe Casing.basic ⟨2026, 4⟩ exampleUuid _
    (Str.forall_mem_of_all rfl)).2.2⟩

end S3

end DjangoBoilerplate
