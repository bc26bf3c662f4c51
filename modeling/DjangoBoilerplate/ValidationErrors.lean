import DjangoBoilerplate.ExceptionHandler

/-!
# Validation messages in the envelope

The `detail` of an `APIException` is a tree of messages, and `api_exception_handler` turns
it into a flat list of entries. It looks one level into a list and into the list of a field;
anything deeper is printed with `str`, as one message for the whole subtree. The key
`detail` is taken out of a `dict` first, for the message of the envelope.

So a message has an entry of its own exactly when it is at the level the handler looks at
(`nested` collects the others), up to messages that are spelled like a printed subtree
(`errors_lossless_iff`).
-/

namespace DjangoBoilerplate

namespace ExceptionHandler

universe u

/-! ## The messages of a detail -/

mutual

/-- The texts of the messages in a detail, in order. -/
def Detail.texts : Detail → List Str
  | .message text _ => [text]
  | .list items => Detail.listTexts items
  | .dict items => Detail.dictTexts items

/-- The texts in the elements of a `list`. -/
def Detail.listTexts : List Detail → List Str
  | [] => []
  | d :: ds => Detail.texts d ++ Detail.listTexts ds

/-- The texts in the values of a `dict`. -/
def Detail.dictTexts : List (Str × Detail) → List Str
  | [] => []
  | (_, d) :: ds => Detail.texts d ++ Detail.dictTexts ds

end

theorem Detail.listTexts_eq (ds : List Detail) : Detail.listTexts ds = ds.flatMap Detail.texts := by
  induction ds with
  | nil => rfl
  | cons d ds ih => rw [Detail.listTexts, ih, List.flatMap_cons]

theorem Detail.dictTexts_eq (ds : List (Str × Detail)) :
    Detail.dictTexts ds = ds.flatMap fun p => p.2.texts := by
  induction ds with
  | nil => rfl
  | cons p ds ih => rw [Detail.dictTexts, ih, List.flatMap_cons]

/-- The messages of a subtree, under a field. -/
def under (field : Option Str) (d : Detail) : List (Option Str × Str) :=
  d.texts.map fun text => (field, text)

/-- The messages of a detail, each with the top-level field it came from. -/
def leaves : Detail → List (Option Str × Str)
  | .dict items => items.flatMap fun p => under (some p.1) p.2
  | d => under none d

/-- The field and the message of an entry. -/
def ErrorItem.shown (e : ErrorItem) : Option Str × Str := (e.field, e.message)

/-- No message is lost: there are entries, and for the text of every message and for every
field there are as many entries with that field and text as there are messages. -/
def Lossless (errors : List ErrorItem) (d : Detail) : Prop :=
  errors ≠ [] ∧ ∀ text ∈ d.texts, ∀ field,
    (errors.map ErrorItem.shown).count (field, text) = (leaves d).count (field, text)

/-! ## What has an entry of its own -/

variable (r : Reprs) (errorDetail : Str → Str → Str)

/-- The parts of a field that get an entry each. -/
def Detail.parts : Detail → List Detail
  | .list items => items
  | d => [d]

/-- A part that is a message. -/
def directPart (field : Option Str) : Detail → List (Option Str × Str)
  | .message text _ => [(field, text)]
  | _ => []

/-- The messages of a part that is none. -/
def nestedPart (field : Option Str) : Detail → List (Option Str × Str)
  | .message _ _ => []
  | d => under field d

/-- What is printed for a part that is no message. -/
def printedPart (field : Option Str) : Detail → List (Option Str × Str)
  | .message _ _ => []
  | d => [(field, d.str r errorDetail)]

/-- The messages that have an entry of their own. -/
def direct : Detail → List (Option Str × Str)
  | .message [] _ => []
  | .message text _ => [(none, text)]
  | .list items => items.flatMap (directPart none)
  | .dict items =>
    (popDetail items).2.flatMap fun p => p.2.parts.flatMap (directPart (some p.1))

/-- The messages that have none: the empty plain message, what is deeper than the handler
looks, and everything under the key `detail` of a `dict`. -/
def nested : Detail → List (Option Str × Str)
  | .message [] _ => [(none, [])]
  | .message _ _ => []
  | .list items => items.flatMap (nestedPart none)
  | .dict items =>
    ((items.filter (·.1 = "detail".toList)).flatMap fun p => under (some p.1) p.2) ++
      (popDetail items).2.flatMap fun p => p.2.parts.flatMap (nestedPart (some p.1))

/-- The entries that are not the text of a message in their place. -/
def printed : Detail → List (Option Str × Str)
  | .message [] _ => [(none, "Validation failed".toList)]
  | .message _ _ => []
  | .list items => items.flatMap (printedPart r errorDetail none)
  | .dict items =>
    match popDetail items with
    | (detail, []) => [(none, detailMessage r errorDetail detail)]
    | (_, remaining) =>
      remaining.flatMap fun p => p.2.parts.flatMap (printedPart r errorDetail (some p.1))

/-- There is something to show: a `list` that is not empty, a `dict` with a field (not
`detail`) that is not an empty `list`, or nothing but `detail` in it. -/
def Shows : Detail → Prop
  | .message _ _ => True
  | .list items => items ≠ []
  | .dict items =>
    (popDetail items).2 = [] ∨ ∃ p ∈ (popDetail items).2, p.2.parts ≠ []

/-! ## Counting -/

theorem perm_flatMap_split {α β : Type*} (xs : List α) {f g h : α → List β}
    (hsplit : ∀ x, (f x).Perm (g x ++ h x)) :
    (xs.flatMap f).Perm (xs.flatMap g ++ xs.flatMap h) :=
  (List.Perm.flatMap_left xs fun x _ => hsplit x).trans (List.flatMap_append_perm xs g h).symm

theorem under_eq (field : Option Str) (d : Detail) :
    under field d = directPart field d ++ nestedPart field d := by
  cases d with
  | message text code => rfl
  | list items => rfl
  | dict items => rfl

theorem under_eq_flatMap (field : Option Str) (d : Detail) :
    under field d = d.parts.flatMap (under field) := by
  cases d with
  | message text code => rfl
  | list items =>
    rw [under, Detail.texts, Detail.listTexts_eq, List.map_flatMap]
    rfl
  | dict items => simp [Detail.parts]

theorem under_perm (field : Option Str) (d : Detail) :
    (under field d).Perm
      (d.parts.flatMap (directPart field) ++ d.parts.flatMap (nestedPart field)) := by
  rw [under_eq_flatMap]
  exact perm_flatMap_split _ fun x => by rw [under_eq]

/-- A message has an entry of its own or has none. -/
theorem leaves_perm (d : Detail) : (leaves d).Perm (direct d ++ nested d) := by
  cases d with
  | message text code =>
    cases text with
    | nil => exact List.Perm.refl _
    | cons c text => exact List.Perm.refl _
  | list items =>
    rw [leaves, under_eq_flatMap]
    · exact perm_flatMap_split items fun x => by rw [under_eq]
    · simp
  | dict items =>
    have hsplit : (items.flatMap fun p => under (some p.1) p.2).Perm
        (((items.filter (·.1 = "detail".toList)).flatMap fun p => under (some p.1) p.2) ++
          (popDetail items).2.flatMap fun p => under (some p.1) p.2) := by
      have hpop : (popDetail items).2 = items.filter fun p => !decide (p.1 = "detail".toList) :=
        List.filter_congr fun p _ => decide_not
      rw [← List.flatMap_append, hpop]
      exact List.Perm.flatMap_right _ (List.filter_append_perm _ items).symm
    have hparts := perm_flatMap_split (popDetail items).2
      fun p : Str × Detail => under_perm (some p.1) p.2
    refine hsplit.trans (((List.Perm.refl _).append hparts).trans ?_)
    simp only [direct, nested]
    rw [← List.append_assoc, ← List.append_assoc]
    exact List.perm_append_comm.append_right _

/-! ## The entries -/

theorem part_eq (field : Option Str) (d : Detail) :
    [(field, d.str r errorDetail)] = directPart field d ++ printedPart r errorDetail field d := by
  cases d with
  | message text code => rfl
  | list items => rfl
  | dict items => rfl

theorem parts_perm (field : Option Str) (ds : List Detail) :
    (ds.map fun d => (field, d.str r errorDetail)).Perm
      (ds.flatMap (directPart field) ++ ds.flatMap (printedPart r errorDetail field)) := by
  rw [List.map_eq_flatMap]
  exact perm_flatMap_split ds fun d => by rw [part_eq]

theorem map_shown_fieldErrors (name : Str) (d : Detail) :
    (fieldErrors r errorDetail name d).map ErrorItem.shown =
      d.parts.map fun part => (some name, part.str r errorDetail) := by
  cases d with
  | message text code => rfl
  | list items => simp [fieldErrors, Detail.parts, ErrorItem.shown, buildErrorDict]
  | dict items => rfl

/-- An entry is a message in its place, or printed. -/
theorem entries_perm (errorCode : Str) (d : Detail) :
    ((flatten r errorDetail errorCode (frameworkData d)).2.map ErrorItem.shown).Perm
      (direct d ++ printed r errorDetail d) := by
  cases d with
  | message text code =>
    cases text with
    | nil => exact List.Perm.refl _
    | cons c text => exact List.Perm.refl _
  | list items =>
    simp only [frameworkData, flatten, List.map_map]
    exact parts_perm r errorDetail none items
  | dict items =>
    simp only [frameworkData, flatten, direct, printed]
    obtain ⟨detail, remaining⟩ := popDetail items
    cases remaining with
    | nil => exact List.Perm.refl _
    | cons p remaining =>
      simp only [List.map_flatMap]
      refine perm_flatMap_split (p :: remaining) fun q => ?_
      rw [map_shown_fieldErrors]
      exact parts_perm r errorDetail (some q.1) q.2.parts

theorem flatten_ne_nil_iff (errorCode : Str) (d : Detail) :
    (flatten r errorDetail errorCode (frameworkData d)).2 ≠ [] ↔ Shows d := by
  cases d with
  | message text code =>
    have hpop : popDetail [("detail".toList, Detail.message text code)] =
        (some (.message text code), []) := by
      unfold popDetail
      generalize "detail".toList = key
      simp
    rw [frameworkData, flatten, hpop]
    simp [Shows]
  | list items => simp [frameworkData, flatten, Shows]
  | dict items =>
    simp only [frameworkData, flatten, Shows]
    obtain ⟨detail, remaining⟩ := popDetail items
    cases remaining with
    | nil => simp
    | cons p remaining =>
      have hfield : ∀ p : Str × Detail,
          fieldErrors r errorDetail p.1 p.2 = [] ↔ p.2.parts = [] := by
        intro p
        rw [← List.map_eq_nil_iff (f := ErrorItem.shown), map_shown_fieldErrors,
          List.map_eq_nil_iff]
      simp only [ne_eq, List.flatMap_eq_nil_iff, hfield, reduceCtorEq, false_or, not_forall,
        exists_prop]

/-! ## What is printed -/

/-- Does a text begin like a printed `list` or `dict`? -/
def bracketed (text : Str) : Bool := text.head? = some '[' || text.head? = some '\x7b'

theorem bracketed_of_mem_printedPart {field : Option Str} {d : Detail} {p : Option Str × Str}
    (h : p ∈ printedPart r errorDetail field d) : bracketed p.2 = true := by
  cases d with
  | message text code => simp [printedPart] at h
  | list items =>
    obtain rfl := List.mem_singleton.mp h
    rfl
  | dict items =>
    obtain rfl := List.mem_singleton.mp h
    rfl

theorem mem_texts_iff {d : Detail} {text : Str} :
    text ∈ d.texts ↔ ∃ field, (field, text) ∈ leaves d := by
  cases d with
  | message t code => simp [leaves, under, Detail.texts]
  | list items => simp [leaves, under]
  | dict items =>
    simp only [Detail.texts, Detail.dictTexts_eq, leaves, List.mem_flatMap, under, List.mem_map,
      Prod.mk.injEq]
    refine ⟨?_, ?_⟩
    · rintro ⟨p, hp, htext⟩
      exact ⟨some p.1, p, hp, text, htext, rfl, rfl⟩
    · rintro ⟨field, p, hp, t, ht, -, rfl⟩
      exact ⟨p, hp, ht⟩

theorem mem_texts_of_mem_nested {d : Detail} {p : Option Str × Str} (h : p ∈ nested d) :
    p.2 ∈ d.texts :=
  mem_texts_iff.mpr ⟨p.1, (leaves_perm d).mem_iff.mpr (List.mem_append_right _ h)⟩

/-- The text of a message is printed in its place only where nothing but `detail` is in a
`dict`, or because it is spelled like a printed subtree. -/
theorem nested_of_mem_printed {d : Detail} {p : Option Str × Str}
    (hprinted : p ∈ printed r errorDetail d) (htext : p.2 ∈ d.texts)
    (hbracketed : bracketed p.2 = false) : nested d ≠ [] ∧ p ∉ nested d := by
  have hpart : ∀ {field : Option Str} {ds : List Detail},
      p ∉ ds.flatMap (printedPart r errorDetail field) := by
    intro field ds hmem
    obtain ⟨part, -, hpart⟩ := List.mem_flatMap.mp hmem
    rw [bracketed_of_mem_printedPart r errorDetail hpart] at hbracketed
    cases hbracketed
  cases d with
  | message text code =>
    cases text with
    | nil =>
      obtain rfl := List.mem_singleton.mp hprinted
      exact absurd (List.mem_singleton.mp htext) (by decide)
    | cons c text => simp [printed] at hprinted
  | list items => exact absurd hprinted hpart
  | dict items =>
    cases hpop : popDetail items with
    | mk detail remaining =>
      cases remaining with
      | nil =>
        rw [printed, hpop] at hprinted
        obtain rfl := List.mem_singleton.mp hprinted
        refine ⟨?_, ?_⟩
        · obtain ⟨field, hleaf⟩ := mem_texts_iff.mp htext
          have hmem := (leaves_perm (.dict items)).mem_iff.mp hleaf
          rw [direct, hpop] at hmem
          exact List.ne_nil_of_mem hmem
        · -- what is nested is under a field
          rw [nested, hpop, List.flatMap_nil, List.append_nil]
          intro hmem
          obtain ⟨q, -, hq⟩ := List.mem_flatMap.mp hmem
          obtain ⟨text, -, htext⟩ := List.mem_map.mp hq
          cases htext
      | cons q remaining =>
        rw [printed, hpop] at hprinted
        obtain ⟨q', -, hq'⟩ := List.mem_flatMap.mp hprinted
        exact absurd hq' hpart

/-! ## When no message is lost -/

/-- The `errors` the handler answers with for an exception the framework handles. -/
def frameworkErrors {κ : Type u} [LE κ] [DecidableLE κ] (registry : StatusMap κ)
    (current : Option Str) (typeName : Str) (status : ℤ) (requestId : Option Str) (d : Detail) :
    List ErrorItem :=
  (apiExceptionHandler r errorDetail registry current
    (.framework typeName status d requestId)).1.body.errors

/-- No message is lost exactly when something is shown and, for every field and text, the
messages without an entry of their own are as many as the subtrees printed as that text.
Where no message is spelled like a printed subtree, this says that every message has an
entry of its own. -/
theorem errors_lossless_iff {κ : Type u} [LE κ] [DecidableLE κ] (registry : StatusMap κ)
    (current : Option Str) (typeName : Str) (status : ℤ) (requestId : Option Str) (d : Detail) :
    (Lossless (frameworkErrors r errorDetail registry current typeName status requestId d) d ↔
      Shows d ∧ ∀ text ∈ d.texts, ∀ field,
        (nested d).count (field, text) = (printed r errorDetail d).count (field, text)) ∧
    ((∀ text ∈ d.texts, bracketed text = false) →
      (Lossless (frameworkErrors r errorDetail registry current typeName status requestId d) d ↔
        Shows d ∧ nested d = [])) := by
  have hiff : Lossless
      (frameworkErrors r errorDetail registry current typeName status requestId d) d ↔
      Shows d ∧ ∀ text ∈ d.texts, ∀ field,
        (nested d).count (field, text) = (printed r errorDetail d).count (field, text) := by
    refine and_congr (flatten_ne_nil_iff r errorDetail _ d) ?_
    refine forall₂_congr fun text _ => forall_congr' fun field => ?_
    have hentries := (entries_perm r errorDetail (drfErrorCode typeName) d).count_eq (field, text)
    have hleaves := (leaves_perm d).count_eq (field, text)
    rw [List.count_append] at hentries hleaves
    rw [frameworkErrors, apiExceptionHandler, failure, hentries, hleaves, Nat.add_left_cancel_iff,
      eq_comm]
  refine ⟨hiff, fun hplain => hiff.trans (and_congr_right fun _ => ?_)⟩
  refine ⟨?_, ?_⟩
  · intro hbalance
    refine List.eq_nil_iff_forall_not_mem.mpr fun p hp => ?_
    -- a message without an entry would have to be printed, and is not printed in its place
    have htext := mem_texts_of_mem_nested hp
    have hcount : 0 < (printed r errorDetail d).count p := by
      rw [← hbalance p.2 htext p.1]
      exact List.count_pos_iff.mpr hp
    obtain ⟨-, hnot⟩ := nested_of_mem_printed r errorDetail (List.count_pos_iff.mp hcount) htext
      (hplain _ htext)
    exact hnot hp
  · intro hnil text htext field
    rw [hnil, List.count_nil, eq_comm, List.count_eq_zero]
    intro hprinted
    obtain ⟨hne, -⟩ := nested_of_mem_printed r errorDetail hprinted htext (hplain _ htext)
    exact hne hnil

/-- A list of nested serializers: the message about `name` in the second item is printed as
part of a `dict`, and has no entry. -/
theorem nested_serializer_loses_message :
    ¬ ∀ (r : Reprs) (errorDetail : Str → Str → Str) (registry : StatusMap ℕ)
      (current : Option Str) (typeName : Str) (status : ℤ) (requestId : Option Str) (d : Detail),
      Lossless (frameworkErrors r errorDetail registry current typeName status requestId d) d := by
  intro halways
  obtain ⟨-, hlossless⟩ := halways ⟨fun _ => true, fun _ _ => []⟩
    (fun text code => "ErrorDetail(string='".toList ++ text ++ "', code='".toList ++ code ++
      "')".toList) .empty none "ValidationError".toList 400 none
    (.dict [("items".toList, .list [.dict [],
      .dict [("name".toList, .list [.message "required".toList "required".toList])]])])
  have hcount := hlossless "required".toList (by decide) (some "items".toList)
  revert hcount
  decide

end ExceptionHandler

end DjangoBoilerplate
