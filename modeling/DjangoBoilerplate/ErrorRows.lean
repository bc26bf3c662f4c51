import DjangoBoilerplate.ApiLogRows
import DjangoBoilerplate.StructuredRedaction

/-!
# What an error row gives away

The `error` column of a row is built by `build_error_message`, which writes the
details and the response body of an exception out as they are: nothing there goes
through `sanitize_for_log`. So the rows of two exceptions that differ only in secrets
are the same exactly if there is no secret in them.

To show that a secret does get into the row, it is filled in with two strings of
different lengths: the `repr` of the details grows with it, once for each secret key.
-/

namespace DjangoBoilerplate

namespace LogSanitization

/-! ## Filling in secrets -/

variable (secret : Str → Bool)

mutual

/-- The value with `w` under every secret key. -/
def fill (w : Value) : Value → Value
  | .dict items => .dict (fillItems w items)
  | .seq items => .seq (fillSeq w items)
  | v => v

/-- For the items of a `dict`. -/
def fillItems (w : Value) : List (Str × Value) → List (Str × Value)
  | [] => []
  | (k, v) :: rest => (k, if secret k then w else fill w v) :: fillItems w rest

/-- For the elements of a `list`. -/
def fillSeq (w : Value) : List Value → List Value
  | [] => []
  | v :: rest => fill w v :: fillSeq w rest

end

mutual

/-- The number of places `fill` fills in. -/
def secrets : Value → ℕ
  | .dict items => secretsItems items
  | .seq items => secretsSeq items
  | _ => 0

/-- For the items of a `dict`. -/
def secretsItems : List (Str × Value) → ℕ
  | [] => 0
  | (k, v) :: rest => (if secret k then 1 else secrets v) + secretsItems rest

/-- For the elements of a `list`. -/
def secretsSeq : List Value → ℕ
  | [] => 0
  | v :: rest => secrets v + secretsSeq rest

end

variable {secret}

theorem fill_of_not_isContainer {w v : Value} (h : v.isContainer = false) :
    fill secret w v = v := by
  cases v with
  | dict items => cases h
  | seq items => cases h
  | _ => rfl

theorem secrets_of_not_isContainer {v : Value} (h : v.isContainer = false) :
    secrets secret v = 0 := by
  cases v with
  | dict items => cases h
  | seq items => cases h
  | _ => rfl

theorem fillItems_eq_map (w : Value) (items : List (Str × Value)) :
    fillItems secret w items =
      items.map fun x => (x.1, if secret x.1 then w else fill secret w x.2) := by
  induction items with
  | nil => rfl
  | cons x items ih => rw [fillItems, ih, List.map_cons]

theorem fillSeq_eq_map (w : Value) (items : List Value) :
    fillSeq secret w items = items.map (fill secret w) := by
  induction items with
  | nil => rfl
  | cons v items ih => rw [fillSeq, ih, List.map_cons]

theorem secretsItems_eq_zero {items : List (Str × Value)} :
    secretsItems secret items = 0 ↔
      ∀ x ∈ items, secret x.1 = false ∧ secrets secret x.2 = 0 := by
  induction items with
  | nil => simp [secretsItems]
  | cons x items ih =>
    obtain ⟨k, v⟩ := x
    rw [secretsItems, Nat.add_eq_zero_iff, ih, List.forall_mem_cons]
    cases secret k <;> simp

theorem secretsSeq_eq_zero {items : List Value} :
    secretsSeq secret items = 0 ↔ ∀ v ∈ items, secrets secret v = 0 := by
  induction items with
  | nil => simp [secretsSeq]
  | cons v items ih => rw [secretsSeq, Nat.add_eq_zero_iff, ih, List.forall_mem_cons]

/-- Filling in secrets changes nothing but secrets. -/
theorem twins_fill (w v : Value) : ValueTwins secret v (fill secret w v) := by
  induction v using Value.induct with
  | leaf v hleaf =>
    rw [fill_of_not_isContainer hleaf]
    exact .refl v
  | dict items ih =>
    rw [fill, fillItems_eq_map]
    apply ValueTwins.dict
    · simp [keysOf, Function.comp_def]
    · rw [← List.map_prod_left_eq_zip]
      simp only [List.forall_mem_map]
      intro x hx hpublic
      rw [hpublic, if_neg Bool.false_ne_true]
      exact ih x hx
  | seq items ih =>
    rw [fill, fillSeq_eq_map]
    apply ValueTwins.seq
    · rw [List.length_map]
    · rw [← List.map_prod_left_eq_zip]
      simp only [List.forall_mem_map]
      exact ih

/-- Without secrets, twins are the same. -/
theorem ValueTwins.eq_of_secrets {v v' : Value} (h : ValueTwins secret v v')
    (hv : secrets secret v = 0) : v = v' := by
  induction h with
  | refl v => rfl
  | @dict items items' hkeys hitems ih =>
    rw [secrets, secretsItems_eq_zero] at hv
    have hall : List.Forall₂
        (fun x y => AgreeOff (fun _ => false) (x.1, id x.2) (y.1, id y.2)) items items' := by
      apply forall₂_of_keysOf hkeys
      intro p hp _
      obtain ⟨hpublic, hnone⟩ := hv p.1 (List.of_mem_zip hp).1
      exact ih p hp hpublic hnone
    apply congrArg Value.dict
    rw [← List.forall₂_eq_eq_eq]
    exact hall.imp fun x y hxy => Prod.ext hxy.1 (hxy.2 rfl)
  | seq hlen hitems ih =>
    rw [secrets, secretsSeq_eq_zero] at hv
    apply congrArg Value.seq
    rw [← List.forall₂_eq_eq_eq, List.forall₂_iff_zip]
    refine ⟨hlen, ?_⟩
    intro x y hxy
    exact ih (x, y) hxy (hv x (List.of_mem_zip hxy).1)

/-! ## The length of what is written out -/

variable {r : Reprs} {w w' : Value} {d : ℕ}

/-- The item of a `dict`, given its value. -/
theorem length_repr_item (hw : (w'.repr r).length = (w.repr r).length + d) {k : Str} {v : Value}
    (hv : ((fill secret w' v).repr r).length =
      ((fill secret w v).repr r).length + secrets secret v * d) :
    ((if secret k then w' else fill secret w' v).repr r).length =
      ((if secret k then w else fill secret w v).repr r).length +
        (if secret k then 1 else secrets secret v) * d := by
  cases secret k with
  | true => simpa using hw
  | false => simpa using hv

/-- The items of a `dict`, given their values. -/
theorem length_itemsRepr_fill (hw : (w'.repr r).length = (w.repr r).length + d)
    {items : List (Str × Value)}
    (ih : ∀ x ∈ items, ((fill secret w' x.2).repr r).length =
      ((fill secret w x.2).repr r).length + secrets secret x.2 * d) :
    (Value.itemsRepr r (fillItems secret w' items)).length =
      (Value.itemsRepr r (fillItems secret w items)).length + secretsItems secret items * d := by
  induction items with
  | nil => simp [fillItems, secretsItems]
  | cons x items ihitems =>
    obtain ⟨k, v⟩ := x
    obtain ⟨ihv, ihrest⟩ := List.forall_mem_cons.mp ih
    have hhead := length_repr_item hw (k := k) ihv
    have hrest := ihitems ihrest
    cases items with
    | nil =>
      simp only [fillItems, Value.itemsRepr, secretsItems, List.length_append, hhead, add_zero]
      omega
    | cons y items =>
      have hcons : ∀ x : Value, Value.itemsRepr r (fillItems secret x ((k, v) :: y :: items)) =
          strRepr r k ++ ": ".toList ++ (if secret k then x else fill secret x v).repr r ++
            ", ".toList ++ Value.itemsRepr r (fillItems secret x (y :: items)) :=
        fun x => Value.itemsRepr_cons (by simp [fillItems])
      rw [hcons, hcons, secretsItems, add_mul]
      simp only [List.length_append, hhead, hrest]
      omega

/-- The elements of a `list`. -/
theorem length_seqRepr_fill {items : List Value}
    (ih : ∀ v ∈ items, ((fill secret w' v).repr r).length =
      ((fill secret w v).repr r).length + secrets secret v * d) :
    (Value.seqRepr r (fillSeq secret w' items)).length =
      (Value.seqRepr r (fillSeq secret w items)).length + secretsSeq secret items * d := by
  induction items with
  | nil => simp [fillSeq, secretsSeq]
  | cons v items ihitems =>
    obtain ⟨ihv, ihrest⟩ := List.forall_mem_cons.mp ih
    have hrest := ihitems ihrest
    cases items with
    | nil =>
      simp only [fillSeq, Value.seqRepr, secretsSeq, ihv, add_zero]
    | cons y items =>
      have hcons : ∀ x : Value, Value.seqRepr r (fillSeq secret x (v :: y :: items)) =
          (fill secret x v).repr r ++ ", ".toList ++
            Value.seqRepr r (fillSeq secret x (y :: items)) :=
        fun x => Value.seqRepr_cons (by simp [fillSeq])
      rw [hcons, hcons, secretsSeq, add_mul]
      simp only [List.length_append, ihv, hrest]
      omega

/-- The `repr` of a value grows with what is filled in, once for each place. -/
theorem length_repr_fill (hw : (w'.repr r).length = (w.repr r).length + d) (v : Value) :
    ((fill secret w' v).repr r).length =
      ((fill secret w v).repr r).length + secrets secret v * d := by
  induction v using Value.induct with
  | leaf v hleaf =>
    simp [fill_of_not_isContainer hleaf, secrets_of_not_isContainer hleaf]
  | dict items ih =>
    have hitems := length_itemsRepr_fill hw ih
    simp only [fill, Value.repr, secrets, List.length_cons, List.length_append, hitems]
    omega
  | seq items ih =>
    have hitems := length_seqRepr_fill ih
    simp only [fill, Value.repr, secrets, List.length_cons, List.length_append, hitems]
    omega

end LogSanitization

namespace ApiLog

open LogSanitization

/-! ## Exceptions that differ only in secrets -/

section Secrets

variable (secret : Str → Bool) (loads : Str → Option Value)

/-- Response bodies that differ only in secrets: objects that do, or a text and another
one that parses to such an object. -/
inductive BodyTwins : ErrorBody → ErrorBody → Prop where
  /-- the same -/
  | refl (b : ErrorBody) : BodyTwins b b
  /-- two objects -/
  | object {items items' : List (Str × Value)}
      (h : ValueTwins secret (.dict items) (.dict items')) :
    BodyTwins (.object items) (.object items')
  /-- two texts -/
  | text {s s' : Str} {items items' : List (Str × Value)} (hs : loads s = some (.dict items))
      (hs' : loads s' = some (.dict items')) (h : ValueTwins secret (.dict items) (.dict items'))
      (hne : Value.dict items ≠ .dict items') :
    BodyTwins (.text s) (.text s')

/-- Details that differ only in secrets. -/
inductive DetailsTwins : Except Unit (Option (List (Str × Value))) →
    Except Unit (Option (List (Str × Value))) → Prop where
  /-- the same -/
  | refl (d : Except Unit (Option (List (Str × Value)))) : DetailsTwins d d
  /-- two dictionaries -/
  | ok {items items' : List (Str × Value)} (h : ValueTwins secret (.dict items) (.dict items')) :
    DetailsTwins (.ok (some items)) (.ok (some items'))

/-- Two `BaseCustomError`s of one class, message and status code whose details and
response bodies differ only in secrets. -/
inductive ExcTwins : Exc → Exc → Prop where
  | mk {typeName message : Str} {e e' : CustomError} (hstatus : e.statusCode = e'.statusCode)
      (hdetails : DetailsTwins secret e.getDetails e'.getDetails)
      (hbody : BodyTwins secret loads e.responseBody e'.responseBody) :
    ExcTwins ⟨typeName, message, some e⟩ ⟨typeName, message, some e'⟩

/-- No key of the details, at any depth, is secret, nor one of the response body, a
text being parsed. -/
structure CustomError.SecretFree (e : CustomError) : Prop where
  /-- the details -/
  details : ∀ items, e.getDetails = .ok (some items) → secrets secret (.dict items) = 0
  /-- a response body that is a `dict` -/
  object : ∀ items, e.responseBody = .object items → secrets secret (.dict items) = 0
  /-- a response body that is a text -/
  text : ∀ s items, e.responseBody = .text s → loads s = some (.dict items) →
    secrets secret (.dict items) = 0

/-- `json.loads` reads back what `json.dumps` writes: an object that was read from a
text, with strings for its secrets, can be read from another one. -/
def Refillable : Prop :=
  ∀ (s : Str) (items : List (Str × Value)) (t : Str), loads s = some (.dict items) →
    ∃ s', loads s' = some (fill secret (.str t) (.dict items))

variable {secret loads} {r : Reprs}

/-- Without secrets, twins are one exception. -/
theorem ExcTwins.eq_of_secretFree {typeName message : Str} {e : CustomError} {e' : Exc}
    (h : ExcTwins secret loads ⟨typeName, message, some e⟩ e') (he : e.SecretFree secret loads) :
    e' = ⟨typeName, message, some e⟩ := by
  cases h with
  | @mk _ _ _ e' hstatus hdetails hbody =>
    obtain ⟨code, details, body⟩ := e
    obtain ⟨code', details', body'⟩ := e'
    simp only at hstatus hdetails hbody
    have hdetails' : details' = details := by
      cases hdetails with
      | refl => rfl
      | @ok items items' h =>
        have heq := h.eq_of_secrets (he.details items rfl)
        rw [Value.dict.injEq] at heq
        rw [heq]
    have hbody' : body' = body := by
      cases hbody with
      | refl => rfl
      | @object items items' h =>
        have heq := h.eq_of_secrets (he.object items rfl)
        rw [Value.dict.injEq] at heq
        rw [heq]
      | @text s s' items items' hs hs' h hne =>
        exact absurd (h.eq_of_secrets (he.text s items rfl hs)) hne
    rw [hstatus, hdetails', hbody']

/-! ## A secret gets into the row -/

/-- Two strings of different lengths. -/
def shortSecret : Value := .str ['a']
/-- The longer one. -/
def longSecret : Value := .str ['a', 'a']

theorem length_repr_longSecret :
    (longSecret.repr r).length = (shortSecret.repr r).length + 1 := by
  simp [longSecret, shortSecret, Value.repr, strRepr, quoteOf, charRepr]

/-- If the `repr` of a value does not depend on the secrets in it, there are none. -/
theorem secrets_eq_zero_of_repr_eq {v : Value}
    (h : (fill secret shortSecret v).repr r = (fill secret longSecret v).repr r) :
    secrets secret v = 0 := by
  have hlen : ((fill secret longSecret v).repr r).length =
      ((fill secret shortSecret v).repr r).length + secrets secret v * 1 :=
    length_repr_fill length_repr_longSecret v
  rw [← h] at hlen
  omega

/-- Messages that differ at most in the details say the same of them. -/
theorem detailsPart_of_message_eq {typeName message : Str} {e : CustomError}
    {details details' : Except Unit (Option (List (Str × Value)))}
    (h : buildErrorMessage r ⟨typeName, message, some { e with getDetails := details }⟩ =
      buildErrorMessage r ⟨typeName, message, some { e with getDetails := details' }⟩) :
    (detailsPart r details).flatMap (fun p => " | ".toList ++ p) =
      (detailsPart r details').flatMap fun p => " | ".toList ++ p := by
  rw [buildErrorMessage_custom, buildErrorMessage_custom] at h
  exact List.append_cancel_right (List.append_cancel_left (List.append_cancel_left h))

/-- And those that differ at most in the response body, of that. -/
theorem responseBodyPart_of_message_eq {typeName message : Str} {e : CustomError}
    {body body' : ErrorBody}
    (h : buildErrorMessage r ⟨typeName, message, some { e with responseBody := body }⟩ =
      buildErrorMessage r ⟨typeName, message, some { e with responseBody := body' }⟩) :
    (responseBodyPart r body).flatMap (fun p => " | ".toList ++ p) =
      (responseBodyPart r body').flatMap fun p => " | ".toList ++ p := by
  rw [buildErrorMessage_custom, buildErrorMessage_custom] at h
  exact List.append_cancel_left (List.append_cancel_left (List.append_cancel_left h))

/-- The part for a text determines the text. -/
theorem text_eq_of_responseBodyPart {s s' : Str}
    (h : (responseBodyPart r (.text s)).flatMap (fun p => " | ".toList ++ p) =
      (responseBodyPart r (.text s')).flatMap fun p => " | ".toList ++ p) : s = s' := by
  cases s with
  | nil =>
    cases s' with
    | nil => rfl
    | cons x s' => simp [responseBodyPart] at h
  | cons x s =>
    cases s' with
    | nil => simp [responseBodyPart] at h
    | cons y s' => simpa [responseBodyPart] using h

section Leak

variable {typeName message : Str} {e : CustomError}
  (hsame : ∀ e', ExcTwins secret loads ⟨typeName, message, some e⟩ e' →
    buildErrorMessage r ⟨typeName, message, some e⟩ = buildErrorMessage r e')
include hsame

/-- If the message of an exception is that of its twins, there is no secret in its
details, -/
theorem secrets_details_eq_zero {items : List (Str × Value)}
    (hdetails : e.getDetails = .ok (some items)) : secrets secret (.dict items) = 0 := by
  have hfill : ∀ w, buildErrorMessage r ⟨typeName, message, some e⟩ = buildErrorMessage r
      ⟨typeName, message, some { e with getDetails := .ok (some (fillItems secret w items)) }⟩ := by
    intro w
    apply hsame
    refine ExcTwins.mk rfl ?_ (.refl _)
    rw [hdetails]
    exact .ok (twins_fill w (.dict items))
  have hpart := detailsPart_of_message_eq ((hfill shortSecret).symm.trans (hfill longSecret))
  apply secrets_eq_zero_of_repr_eq (r := r)
  cases items with
  | nil => rfl
  | cons x items =>
    simp only [fillItems, detailsPart, List.flatMap_cons, List.flatMap_nil,
      List.append_nil] at hpart
    exact List.append_cancel_left (List.append_cancel_left hpart)

/-- nor in its response body, -/
theorem secrets_object_eq_zero {items : List (Str × Value)}
    (hbody : e.responseBody = .object items) : secrets secret (.dict items) = 0 := by
  have hfill : ∀ w, buildErrorMessage r ⟨typeName, message, some e⟩ = buildErrorMessage r
      ⟨typeName, message, some { e with responseBody := .object (fillItems secret w items) }⟩ := by
    intro w
    apply hsame
    refine ExcTwins.mk rfl (.refl _) ?_
    rw [hbody]
    exact .object (twins_fill w (.dict items))
  have hpart := responseBodyPart_of_message_eq ((hfill shortSecret).symm.trans (hfill longSecret))
  apply secrets_eq_zero_of_repr_eq (r := r)
  cases items with
  | nil => rfl
  | cons x items =>
    simp only [fillItems, responseBodyPart, List.flatMap_cons, List.flatMap_nil,
      List.append_nil] at hpart
    exact List.append_cancel_left (List.append_cancel_left hpart)

/-- a text being parsed. -/
theorem secrets_text_eq_zero (hloads : Refillable secret loads) {s : Str}
    {items : List (Str × Value)} (hbody : e.responseBody = .text s)
    (hs : loads s = some (.dict items)) : secrets secret (.dict items) = 0 := by
  -- a text with another secret would make another message
  have hfill : ∀ t, fill secret (.str t) (.dict items) = .dict items := by
    intro t
    by_contra hne
    obtain ⟨s', hs'⟩ := hloads s items t hs
    have hmessage : buildErrorMessage r ⟨typeName, message, some e⟩ =
        buildErrorMessage r ⟨typeName, message, some { e with responseBody := .text s' }⟩ := by
      apply hsame
      refine ExcTwins.mk rfl (.refl _) ?_
      rw [hbody]
      exact .text hs hs' (twins_fill _ (.dict items)) (Ne.symm hne)
    have he : e = { e with responseBody := .text s } := by rw [← hbody]
    rw [he] at hmessage
    have heq := text_eq_of_responseBodyPart (responseBodyPart_of_message_eq hmessage)
    rw [← heq, hs] at hs'
    exact hne (Option.some.inj hs').symm
  apply secrets_eq_zero_of_repr_eq (r := r)
  rw [shortSecret, longSecret, hfill, hfill]

end Leak

end Secrets

/-! ## When error rows do not leak -/

/-- The rows of two calls that raised are the same, whatever the service, the request
and the time taken. -/
def RowsAlike (c : Context) (e e' : Exc) : Prop :=
  ∀ (serviceName elapsedMs : Str) (request : Option ViewRequest),
    outboundRow c serviceName (.raised e) elapsedMs =
        outboundRow c serviceName (.raised e') elapsedMs ∧
      inboundRow c serviceName request (.raised e) elapsedMs =
        inboundRow c serviceName request (.raised e') elapsedMs

theorem rowsAlike_iff {c : Context} {e e' : Exc} :
    RowsAlike c e e' ↔ errorColumn c e = errorColumn c e' := by
  simp only [RowsAlike, outboundRow_raised_eq_iff, inboundRow_raised_eq_iff, and_self]
  refine ⟨?_, ?_⟩
  · intro h
    exact h [] [] none
  · intro h _ _ _
    exact h

/-- **When error rows do not leak**: the rows of an exception are those of every
exception that differs from it only in secrets exactly if it has none in its details and
response body. -/
theorem error_rows_alike_iff (c : Context) (hloads : Refillable c.secret c.loads)
    (typeName message : Str) (e : CustomError) :
    (∀ e', ExcTwins c.secret c.loads ⟨typeName, message, some e⟩ e' →
        RowsAlike c ⟨typeName, message, some e⟩ e') ↔
      e.SecretFree c.secret c.loads := by
  refine ⟨?_, ?_⟩
  · intro halike
    have hsame : ∀ e', ExcTwins c.secret c.loads ⟨typeName, message, some e⟩ e' →
        buildErrorMessage c.reprs ⟨typeName, message, some e⟩ = buildErrorMessage c.reprs e' := by
      intro e' htwins
      exact congrArg ErrorColumn.message (rowsAlike_iff.mp (halike e' htwins))
    refine ⟨?_, ?_, ?_⟩
    · exact fun items => secrets_details_eq_zero hsame
    · exact fun items => secrets_object_eq_zero hsame
    · exact fun s items => secrets_text_eq_zero hsame hloads
  · intro hfree e' htwins
    rw [htwins.eq_of_secretFree hfree, rowsAlike_iff]

/-- The default settings, in a request without an id. `json.loads` is given on one
text. -/
def plainContext : Context where
  casing := Casing.basic
  reprs := ⟨fun _ => false, fun typeName _ => typeName⟩
  loads s :=
    if s = "\x7b\x22id\x22: 7\x7d".toList then some (.dict [("id".toList, .int 7)]) else none
  decode _ := []
  sanitization := defaultConfig
  sensitiveHeaders := ["authorization".toList]
  maxBodyLen := 4096
  requestId := none

/-- An `APIError` with a password in its details. -/
def loginError (password : Str) : Exc :=
  apiError "HTTP request failed.".toList (some 401) .absent [("password".toList, .str password)]

theorem loginError_eq (password : Str) :
    loginError password = ⟨"APIError".toList, "HTTP request failed.".toList,
      some ⟨some 401, .ok (some [("password".toList, .str password),
        ("status_code".toList, .int 401)]), .absent⟩⟩ := by
  have hne : "password".toList ≠ "status_code".toList := by decide
  have hset : setItem [("password".toList, Value.str password)] "status_code".toList (.int 401) =
      [("password".toList, .str password), ("status_code".toList, .int 401)] := by
    rw [setItem, if_neg hne, setItem]
  rw [← hset]
  rfl

/-- Such errors differ only in a secret. -/
theorem excTwins_loginError (p q : Str) :
    ExcTwins plainContext.secret plainContext.loads (loginError p) (loginError q) := by
  rw [loginError_eq, loginError_eq]
  refine ExcTwins.mk rfl (.ok (ValueTwins.dict (by rfl) ?_)) (.refl _)
  simp only [List.zip_cons_cons, List.zip_nil_right, List.forall_mem_cons]
  refine ⟨?_, fun _ => .refl _, by simp⟩
  intro hpublic
  exact absurd hpublic (by decide)

/-- The passwords of two such errors are in their rows. -/
theorem error_row_leaks :
    ¬ ∀ (c : Context) (e e' : Exc), ExcTwins c.secret c.loads e e' → RowsAlike c e e' := by
  intro halways
  have htwins := excTwins_loginError "hunter2".toList "swordfish".toList
  have hcolumn := rowsAlike_iff.mp (halways _ _ _ htwins)
  have hmessage : buildErrorMessage plainContext.reprs (loginError "hunter2".toList) =
      buildErrorMessage plainContext.reprs (loginError "swordfish".toList) :=
    congrArg ErrorColumn.message hcolumn
  revert hmessage
  decide +kernel

/-- An `APIError` whose response body is the text `plainContext` parses. -/
def lookupError : CustomError :=
  ⟨some 502, .ok none, .text "\x7b\x22id\x22: 7\x7d".toList⟩

/-- Its rows say the same of every error that differs from it only in secrets. -/
theorem error_rows_alike_lookupError :
    lookupError.SecretFree plainContext.secret plainContext.loads ∧
      ∀ e', ExcTwins plainContext.secret plainContext.loads
          ⟨"APIError".toList, "HTTP request failed.".toList, some lookupError⟩ e' →
        RowsAlike plainContext
          ⟨"APIError".toList, "HTTP request failed.".toList, some lookupError⟩ e' := by
  have hloads : ∀ s items, plainContext.loads s = some (.dict items) →
      items = [("id".toList, .int 7)] := by
    intro s items h
    simp only [plainContext] at h
    split at h
    · rw [Option.some.injEq, Value.dict.injEq] at h
      exact h.symm
    · cases h
  have hpublic : plainContext.secret "id".toList = false := by decide
  have hrefill : Refillable plainContext.secret plainContext.loads := by
    intro s items t h
    refine ⟨s, ?_⟩
    rw [h, hloads s items h, fill, fillItems, fillItems, hpublic]
    rfl
  have hfree : lookupError.SecretFree plainContext.secret plainContext.loads := by
    refine ⟨?_, ?_, ?_⟩
    · intro items h
      cases h
    · intro items h
      cases h
    · intro s items _ h
      rw [hloads s items h, secrets, secretsItems, secretsItems, hpublic]
      rfl
  exact ⟨hfree, (error_rows_alike_iff plainContext hrefill _ _ _).mpr hfree⟩

end ApiLog

end DjangoBoilerplate
