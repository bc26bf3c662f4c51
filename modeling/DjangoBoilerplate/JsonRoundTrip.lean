import DjangoBoilerplate.JsonText

/-!
# Documents survive being written and read

What `json.dumps` writes is read back as it was, in whatever layout (`loads_encode`), and what
`json.loads` returns can be written (`isJson_of_loads`), so a text may be reformatted without a
change of what it says. The induction is over the document; the scanner's bound has to be twice the
length of the text, since it is counted down once for a container and once for each of its parts.
-/

namespace DjangoBoilerplate

namespace JsonText

variable {F : Floats}

/-! ## The first character -/

/-- A literal begins with a minus or a digit. -/
theorem Literal.Valid.head {l : Literal} (hl : l.Valid) :
    ∃ c t, l.text = c :: t ∧ (c = '-' ∨ c.isDigit = true) := by
  have hwhole : ∃ c t, l.whole = c :: t ∧ c.isDigit = true := by
    obtain h | ⟨c, ds, h, -, hc, -⟩ := hl.whole
    · exact ⟨'0', [], h, rfl⟩
    · exact ⟨c, ds, h, hc⟩
  obtain ⟨c, t, hwhole, hc⟩ := hwhole
  obtain hsign | hsign := hl.sign
  · exact ⟨c, _, by rw [Literal.text, hsign, hwhole]; rfl, .inr hc⟩
  · exact ⟨'-', _, by rw [Literal.text, hsign]; rfl, .inl rfl⟩

/-- The characters that begin no number. -/
theorem ne_of_numberStart {c d : Char} (hc : c = '-' ∨ c.isDigit = true) (hminus : d ≠ '-')
    (hdigit : d.isDigit = false) : c ≠ d := by
  rintro rfl
  obtain h | h := hc
  · exact hminus h
  · rw [h] at hdigit
    cases hdigit

theorem isBlank_of_numberStart {c : Char} (hc : c = '-' ∨ c.isDigit = true) :
    isBlank c = false := by
  have hne : ∀ {d : Char}, d ≠ '-' → d.isDigit = false → (c == d) = false := by
    intro d hminus hdigit
    exact beq_eq_false_iff_ne.mpr (ne_of_numberStart hc hminus hdigit)
  rw [isBlank, hne (by decide) rfl, hne (by decide) rfl, hne (by decide) rfl,
    hne (by decide) rfl]
  rfl

theorem endsNumber_nil : EndsNumber [] := by
  intro c hc
  cases hc

/-- A literal is none of the words for the floats without one. -/
theorem floatText_literal {t : Str} (ht : FloatLiteral t) : floatText t = t := by
  obtain ⟨l, hl, -, rfl⟩ := ht
  have hscan := scanNumber_text hl endsNumber_nil
  rw [List.append_nil] at hscan
  have hne : ∀ {w : Str}, scanNumber w = none → l.text ≠ w := by
    rintro w hw rfl
    rw [hscan] at hw
    cases hw
  rw [floatText, if_neg (hne rfl), if_neg (hne rfl), if_neg (hne rfl)]

/-- The text of a document begins with a character that is no white space and closes nothing. -/
theorem encode_head (L : Layout) (n : ℕ) {v : Value} (hv : IsJson F v) :
    ∃ c t, encode L n v = c :: t ∧ isBlank c = false ∧ c ≠ ']' ∧ c ≠ '\ufeff' := by
  have hliteral : ∀ {l : Literal}, l.Valid → ∃ c t, l.text = c :: t ∧ isBlank c = false ∧
      c ≠ ']' ∧ c ≠ '\ufeff' := by
    intro l hl
    obtain ⟨c, t, htext, hc⟩ := hl.head
    exact ⟨c, t, htext, isBlank_of_numberStart hc, ne_of_numberStart hc (by decide) rfl,
      ne_of_numberStart hc (by decide) rfl⟩
  cases hv with
  | none => exact ⟨'n', _, rfl, rfl, by decide⟩
  | bool b =>
    cases b with
    | false => exact ⟨'f', _, rfl, rfl, by decide⟩
    | true => exact ⟨'t', _, rfl, rfl, by decide⟩
  | int i hdigits =>
    rw [encode, ← text_intLiteral]
    exact hliteral (valid_intLiteral i)
  | special t ht =>
    obtain rfl | rfl | rfl := ht
    · exact ⟨'N', _, rfl, rfl, by decide⟩
    · exact ⟨'I', _, rfl, rfl, by decide⟩
    · exact ⟨'-', _, rfl, rfl, by decide⟩
  | float t ht hrepr =>
    rw [encode, floatText_literal ht]
    obtain ⟨l, hl, -, rfl⟩ := ht
    exact hliteral hl
  | str s => exact ⟨'\x22', _, rfl, rfl, by decide⟩
  | seq items hitems =>
    cases items with
    | nil => exact ⟨'[', _, rfl, rfl, by decide⟩
    | cons v items => exact ⟨'[', _, rfl, rfl, by decide⟩
  | dict items hnodup hitems =>
    cases items with
    | nil => exact ⟨'\x7b', _, rfl, rfl, by decide⟩
    | cons x items => exact ⟨'\x7b', _, rfl, rfl, by decide⟩

/-! ## The round trip -/

/-- The scanner gets a document back from its text. -/
def Reads (F : Floats) (v : Value) : Prop :=
  ∀ (L : Layout) (level n : ℕ) (rest : Str), EndsNumber rest → 2 * (encode L level v).length ≤ n →
    scanValue F n (encode L level v ++ rest) = .ok (v, rest)

theorem reads_literal {l : Literal} (hl : l.Valid) {v : Value} (hvalue : l.value F = .ok v)
    (htext : ∀ (L : Layout) (n : ℕ), encode L n v = l.text) : Reads F v := by
  intro L level n rest hrest hn
  rw [htext] at hn ⊢
  obtain ⟨c, t, hcons, hc⟩ := hl.head
  have hscan := scanNumber_text hl hrest
  rw [hcons] at hn hscan ⊢
  obtain ⟨n, rfl⟩ : ∃ m, n = m + 1 := ⟨n - 1, by rw [List.length_cons] at hn; omega⟩
  rw [List.cons_append] at hscan ⊢
  rw [scanValue, if_neg (ne_of_numberStart hc (by decide) rfl),
    if_neg (ne_of_numberStart hc (by decide) rfl), if_neg (ne_of_numberStart hc (by decide) rfl),
    scanAtom, hscan]
  simp only [hvalue, Except.map]

theorem reads_constant {w : Str} {v : Value} (htext : ∀ (L : Layout) (n : ℕ), encode L n v = w)
    (hw : w ≠ []) (hscan : ∀ (n : ℕ) (rest : Str), scanValue F (n + 1) (w ++ rest) = .ok (v, rest)) :
    Reads F v := by
  intro L level n rest _ hn
  rw [htext] at hn ⊢
  have := List.length_pos_of_ne_nil hw
  obtain ⟨n, rfl⟩ : ∃ m, n = m + 1 := ⟨n - 1, by omega⟩
  exact hscan n rest

theorem endsNumber_cons {c : Char} {s : Str}
    (hc : c.isDigit = false ∧ c ≠ '.' ∧ c ≠ 'e' ∧ c ≠ 'E') : EndsNumber (c :: s) := by
  intro d hd
  obtain rfl := Option.some.inj hd
  exact hc

theorem endsNumber_blank {w s : Str} (hw : ∀ c ∈ w, isBlank c = true) (hs : EndsNumber s) :
    EndsNumber (w ++ s) := by
  cases w with
  | nil => exact hs
  | cons c w =>
    refine endsNumber_cons ?_
    have hc := hw c List.mem_cons_self
    simp only [isBlank, Bool.or_eq_true, beq_iff_eq] at hc
    obtain ((rfl | rfl) | rfl) | rfl := hc <;> decide

theorem endsNumber_elements (L : Layout) (level : ℕ) (items : List Value) (rest : Str) :
    EndsNumber (encodeElements L level items ++ rest) := by
  cases items with
  | nil =>
    rw [encodeElements, List.append_assoc]
    exact endsNumber_blank (L.blank_closing level) (endsNumber_cons (by decide))
  | cons v items => exact endsNumber_cons (by decide)

theorem endsNumber_members (L : Layout) (level : ℕ) (items : List (Str × Value)) (rest : Str) :
    EndsNumber (encodeMembers L level items ++ rest) := by
  cases items with
  | nil =>
    rw [encodeMembers, List.append_assoc]
    exact endsNumber_blank (L.blank_closing level) (endsNumber_cons (by decide))
  | cons x items =>
    obtain ⟨k, v⟩ := x
    exact endsNumber_cons (by decide)

/-- White space before a document is skipped, and no more. -/
theorem skipBlank_encode (L : Layout) (level : ℕ) {v : Value} (hv : IsJson F v) {w : Str}
    (hw : ∀ c ∈ w, isBlank c = true) (rest : Str) :
    skipBlank (w ++ (encode L level v ++ rest)) = encode L level v ++ rest := by
  obtain ⟨c, t, htext, hblank, -⟩ := encode_head L level hv
  rw [skipBlank_append hw, htext, List.cons_append, skipBlank_cons hblank]

/-- The same before a string. -/
theorem skipBlank_quoted {w : Str} (hw : ∀ c ∈ w, isBlank c = true) (k rest : Str) :
    skipBlank (w ++ (quoted k ++ rest)) = '\x22' :: (k.flatMap escapeChar ++ '\x22' :: rest) := by
  rw [skipBlank_append hw, quoted, List.cons_append, skipBlank_cons (by decide),
    List.append_assoc]
  rfl

/-- The elements of an array are read one after the other. -/
theorem scanElements_encode (L : Layout) (level : ℕ) {items : List Value}
    (hitems : ∀ v ∈ items, IsJson F v ∧ Reads F v) {v : Value} (hv : IsJson F v ∧ Reads F v)
    (acc : List Value) (n : ℕ) (rest : Str)
    (hn : 2 * (encode L (level + 1) v ++ encodeElements L level items).length ≤ n) :
    scanElements F n acc (encode L (level + 1) v ++ (encodeElements L level items ++ rest)) =
      .ok (.seq (acc ++ v :: items), rest) := by
  induction items generalizing v acc n with
  | nil =>
    rw [List.length_append, encodeElements, List.length_append, List.length_singleton] at hn
    obtain ⟨n, rfl⟩ : ∃ m, n = m + 1 := ⟨n - 1, by omega⟩
    rw [scanElements, hv.2 L (level + 1) n _ (endsNumber_elements L level [] rest) (by omega)]
    simp only [encodeElements, List.append_assoc, skipBlank_append (L.blank_closing level)]
    rfl
  | cons w items ih =>
    obtain ⟨hw, hitems⟩ := List.forall_mem_cons.mp hitems
    rw [List.length_append, encodeElements, List.length_cons, List.length_append] at hn
    obtain ⟨n, rfl⟩ : ∃ m, n = m + 1 := ⟨n - 1, by omega⟩
    rw [scanElements, hv.2 L (level + 1) n _ (endsNumber_elements L level _ rest) (by omega)]
    simp only [encodeElements, List.cons_append, List.append_assoc]
    rw [skipBlank_cons (by decide)]
    simp only [skipBlank_encode L (level + 1) hw.1 (L.blank_between level)]
    rw [ih hitems hw (acc ++ [v]) n (by omega), List.append_assoc]
    rfl

section Member

variable (L : Layout) (level : ℕ) (k : Str) {v : Value} (hv : IsJson F v ∧ Reads F v)
  (acc : List (Str × Value)) (n : ℕ) {tail rest : Str} (htail : EndsNumber tail)
  (hn : 2 * (encode L level v).length ≤ n)

include hv

/-- The colon and the space after a name are skipped. -/
theorem skipBlank_colon (tail : Str) :
    skipBlank (": ".toList ++ (encode L level v ++ tail)) =
        ':' :: ([' '] ++ (encode L level v ++ tail)) ∧
      skipBlank ([' '] ++ (encode L level v ++ tail)) = encode L level v ++ tail :=
  ⟨rfl, skipBlank_encode L level hv.1 (by simp [isBlank]) tail⟩

include htail hn

/-- The last member of an object, -/
theorem scanMembers_last (hlast : skipBlank tail = '\x7d' :: rest) :
    scanMembers F (n + 1) acc
        (k.flatMap escapeChar ++ '\x22' :: (": ".toList ++ (encode L level v ++ tail))) =
      .ok (.dict (setItem acc k v), rest) := by
  obtain ⟨hcolon, hvalue⟩ := skipBlank_colon L level hv tail
  rw [scanMembers, scanString_quoted]
  simp only [hcolon, hvalue, hv.2 L level n tail htail hn, hlast]

/-- and one that others follow. -/
theorem scanMembers_next {after : Str} (hcomma : skipBlank tail = ',' :: after)
    (hname : skipBlank after = '\x22' :: rest) :
    scanMembers F (n + 1) acc
        (k.flatMap escapeChar ++ '\x22' :: (": ".toList ++ (encode L level v ++ tail))) =
      scanMembers F n (setItem acc k v) rest := by
  obtain ⟨hcolon, hvalue⟩ := skipBlank_colon L level hv tail
  rw [scanMembers, scanString_quoted]
  simp only [hcolon, hvalue, hv.2 L level n tail htail hn, hcomma, hname]

end Member

/-- A name that comes later is new. -/
theorem setItem_of_nodup {acc items : List (Str × Value)} {k : Str} {v : Value}
    (hnodup : (keysOf (acc ++ (k, v) :: items)).Nodup) : setItem acc k v = acc ++ [(k, v)] := by
  refine setItem_of_not_mem v ?_
  rw [keysOf, List.map_append, List.nodup_append] at hnodup
  intro hk
  exact hnodup.2.2 k hk k List.mem_cons_self rfl

/-- The members of an object are read one after the other, and its names are distinct. -/
theorem scanMembers_encode (L : Layout) (level : ℕ) {items : List (Str × Value)}
    (hitems : ∀ x ∈ items, IsJson F x.2 ∧ Reads F x.2) {k : Str} {v : Value}
    (hv : IsJson F v ∧ Reads F v) (acc : List (Str × Value))
    (hnodup : (keysOf (acc ++ (k, v) :: items)).Nodup) (n : ℕ) (rest : Str)
    (hn : 2 * ((encode L (level + 1) v).length + (encodeMembers L level items).length) ≤ n) :
    scanMembers F n acc (k.flatMap escapeChar ++ '\x22' :: (": ".toList ++
      (encode L (level + 1) v ++ (encodeMembers L level items ++ rest)))) =
      .ok (.dict (acc ++ (k, v) :: items), rest) := by
  induction items generalizing k v acc n with
  | nil =>
    rw [encodeMembers, List.length_append, List.length_cons] at hn
    obtain ⟨n, rfl⟩ : ∃ m, n = m + 1 := ⟨n - 1, by omega⟩
    have hlast : skipBlank (encodeMembers L level [] ++ rest) = '\x7d' :: rest := by
      rw [encodeMembers, List.append_assoc, skipBlank_append (L.blank_closing level)]
      rfl
    rw [scanMembers_last L (level + 1) k hv acc n (endsNumber_members L level [] rest) (by omega)
      hlast, setItem_of_nodup hnodup]
  | cons x items ih =>
    obtain ⟨k', w⟩ := x
    obtain ⟨hw, hitems⟩ := List.forall_mem_cons.mp hitems
    dsimp only at hw
    rw [encodeMembers, List.length_cons, List.length_append, List.length_append,
      List.length_append] at hn
    obtain ⟨n, rfl⟩ : ∃ m, n = m + 1 := ⟨n - 1, by omega⟩
    have hcomma : skipBlank (encodeMembers L level ((k', w) :: items) ++ rest) =
        ',' :: (L.between level ++ (quoted k' ++ (": ".toList ++ (encode L (level + 1) w ++
          (encodeMembers L level items ++ rest))))) := by
      rw [encodeMembers, List.cons_append, skipBlank_cons (by decide)]
      simp only [List.append_assoc]
    rw [scanMembers_next L (level + 1) k hv acc n (endsNumber_members L level _ rest) (by omega)
      hcomma (skipBlank_quoted (L.blank_between level) k' _), setItem_of_nodup hnodup,
      ih hitems hw (acc ++ [(k, v)]) (by rwa [List.append_assoc]) n (by omega),
      List.append_assoc]
    rfl

theorem reads_seq {items : List Value} (hitems : ∀ v ∈ items, IsJson F v ∧ Reads F v) :
    Reads F (.seq items) := by
  intro L level n rest _ hn
  cases items with
  | nil =>
    cases n with
    | zero =>
      rw [encode] at hn
      exact absurd hn (by decide)
    | succ n => rfl
  | cons v items =>
    obtain ⟨hv, hitems⟩ := List.forall_mem_cons.mp hitems
    rw [encode, List.length_cons, List.length_append] at hn
    obtain ⟨n, rfl⟩ : ∃ m, n = m + 1 := ⟨n - 1, by omega⟩
    obtain ⟨c, t, htext, -, hclose, -⟩ := encode_head L (level + 1) hv.1
    have hread := scanElements_encode L level hitems hv [] n rest (by omega)
    have hskip := skipBlank_encode L (level + 1) hv.1 (L.blank_opening level)
      (encodeElements L level items ++ rest)
    rw [encode, List.cons_append, List.append_assoc, List.append_assoc, scanValue,
      if_neg (by decide), if_pos rfl, hskip]
    -- the first element closes nothing
    split
    · next heq =>
      rw [htext] at heq
      exact absurd (List.cons.inj heq).1 hclose
    · exact hread

theorem reads_dict {items : List (Str × Value)} (hnodup : (keysOf items).Nodup)
    (hitems : ∀ x ∈ items, IsJson F x.2 ∧ Reads F x.2) : Reads F (.dict items) := by
  intro L level n rest _ hn
  cases items with
  | nil =>
    cases n with
    | zero =>
      rw [encode] at hn
      exact absurd hn (by decide)
    | succ n => rfl
  | cons x items =>
    obtain ⟨k, v⟩ := x
    obtain ⟨hv, hitems⟩ := List.forall_mem_cons.mp hitems
    rw [encode, List.length_cons, List.length_append, List.length_append, List.length_append] at hn
    obtain ⟨n, rfl⟩ : ∃ m, n = m + 1 := ⟨n - 1, by omega⟩
    dsimp only at hv
    have hread := scanMembers_encode L level hitems hv [] hnodup n rest (by omega)
    rw [encode, List.cons_append, scanValue, if_neg (by decide), if_neg (by decide), if_pos rfl]
    simp only [List.append_assoc, skipBlank_quoted (L.blank_opening level)]
    exact hread

/-- A word is read as what it stands for. -/
theorem scanValue_word {c : Char} {w rest : Str} {v : Value} {n : ℕ} (hquote : c ≠ '\x22')
    (hseq : c ≠ '[') (hdict : c ≠ '\x7b') (hnumber : scanNumber (c :: (w ++ rest)) = none)
    (hfind : (constants.find? fun k => k.1.isPrefixOf (c :: (w ++ rest))) = some (c :: w, v)) :
    scanValue F (n + 1) (c :: (w ++ rest)) = .ok (v, rest) := by
  rw [scanValue, if_neg hquote, if_neg hseq, if_neg hdict, scanAtom, hnumber]
  simp only [hfind, List.length_cons, List.drop_succ_cons, List.drop_left]

theorem reads_special {t : Str}
    (ht : t = "nan".toList ∨ t = "inf".toList ∨ t = "-inf".toList) : Reads F (.float t) := by
  obtain rfl | rfl | rfl := ht
  · refine reads_constant (w := 'N' :: "aN".toList) (fun L n => ?_) (by decide) fun n rest => ?_
    · rw [encode, floatText, if_pos rfl]
      rfl
    · exact scanValue_word (by decide) (by decide) (by decide) rfl rfl
  · refine reads_constant (w := 'I' :: "nfinity".toList) (fun L n => ?_) (by decide)
      fun n rest => ?_
    · rw [encode, floatText, if_neg (by decide), if_pos rfl]
      rfl
    · exact scanValue_word (by decide) (by decide) (by decide) rfl rfl
  · refine reads_constant (w := '-' :: "Infinity".toList) (fun L n => ?_) (by decide)
      fun n rest => ?_
    · rw [encode, floatText, if_neg (by decide), if_neg (by decide), if_pos rfl]
      rfl
    · exact scanValue_word (by decide) (by decide) (by decide) rfl rfl

/-- **Every document is read back from its text.** -/
theorem reads_of_isJson {v : Value} (hv : IsJson F v) : Reads F v := by
  induction hv with
  | none => exact reads_constant (fun _ _ => rfl) (by decide) fun _ _ => rfl
  | bool b =>
    cases b with
    | false => exact reads_constant (fun _ _ => rfl) (by decide) fun _ _ => rfl
    | true => exact reads_constant (fun _ _ => rfl) (by decide) fun _ _ => rfl
  | int i hdigits =>
    refine reads_literal (valid_intLiteral i) ?_ fun L n => ?_
    · have hlength : (intLiteral i).whole.length ≤ maxStrDigits := by
        rwa [whole_intLiteral, decimal, ← Nat.toList_repr, String.length_toList]
      rw [Literal.value, isFloat_intLiteral, if_neg (by decide), if_neg hlength.not_gt,
        readInt_intLiteral]
    · rw [encode, text_intLiteral]
  | special t ht => exact reads_special ht
  | float t ht hrepr =>
    have htext := floatText_literal ht
    obtain ⟨l, hl, hfloat, rfl⟩ := ht
    refine reads_literal hl ?_ fun L n => ?_
    · rw [Literal.value, if_pos hfloat, hrepr]
    · rw [encode, htext]
  | str s =>
    intro L level n rest _ hn
    obtain ⟨n, rfl⟩ : ∃ m, n = m + 1 := ⟨n - 1, by
      rw [encode, quoted, List.length_cons] at hn
      omega⟩
    rw [encode, quoted, List.cons_append, List.append_assoc, scanValue, if_pos rfl]
    simp only [List.cons_append, List.nil_append, scanString_quoted, Except.map]
  | seq items hitems ih => exact reads_seq fun v hv => ⟨hitems v hv, ih v hv⟩
  | dict items hnodup hitems ih => exact reads_dict hnodup fun x hx => ⟨hitems x hx, ih x hx⟩

/-- **What `json.dumps` writes, in whatever layout, `json.loads` reads as it was.** -/
theorem loads_encode (L : Layout) {v : Value} (hv : IsJson F v) :
    loads F (encode L 0 v) = .ok v := by
  have hread := reads_of_isJson hv L 0 _ [] endsNumber_nil le_rfl
  have hskip := skipBlank_encode L 0 hv (w := []) (by simp) []
  simp only [List.nil_append, List.append_nil] at hread hskip
  have hbom : (encode L 0 v).head? ≠ some '\ufeff' := by
    obtain ⟨c, t, htext, -, -, hc⟩ := encode_head L 0 hv
    rw [htext]
    exact fun heq => hc (Option.some.inj heq)
  rw [loads, if_neg hbom, hskip, hread]
  rfl

/-! ## What is read -/

theorem isJson_of_atom {s rest : Str} {v : Value} (h : scanAtom F s = .ok (v, rest)) :
    IsJson F v := by
  unfold scanAtom at h
  split at h
  · next l rest' hnumber =>
    have hl := valid_of_scanNumber hnumber
    unfold Literal.value at h
    split at h
    · next hfloat =>
      cases h
      obtain hinf | hinf | ⟨hliteral, hrepr⟩ := F.reprOf_literal l.text ⟨l, hl, hfloat, rfl⟩
      · exact .special _ (.inr (.inl hinf))
      · exact .special _ (.inr (.inr hinf))
      · exact .float _ hliteral hrepr
    · split at h
      · cases h
      · next hlength =>
        cases h
        exact .int _ (hl.digits_le (not_lt.mp hlength))
  · split at h
    · next k hfind =>
      cases h
      have hk := List.mem_of_find?_eq_some hfind
      simp only [constants, List.mem_cons, List.not_mem_nil, or_false] at hk
      obtain rfl | rfl | rfl | rfl | rfl | rfl := hk
      · exact .none
      · exact .bool true
      · exact .bool false
      · exact .special _ (.inl rfl)
      · exact .special _ (.inr (.inl rfl))
      · exact .special _ (.inr (.inr rfl))
    · cases h

/-- What the three scanners return with a bound is a document. -/
structure Sound (F : Floats) (n : ℕ) : Prop where
  /-- of any kind -/
  value : ∀ {s rest v}, scanValue F n s = .ok (v, rest) → IsJson F v
  /-- an array, if it begins as one -/
  elements : ∀ {items s rest v}, (∀ w ∈ items, IsJson F w) →
    scanElements F n items s = .ok (v, rest) → IsJson F v
  /-- an object, if it begins as one -/
  members : ∀ {items s rest v}, (keysOf items).Nodup → (∀ x ∈ items, IsJson F x.2) →
    scanMembers F n items s = .ok (v, rest) → IsJson F v

theorem sound (F : Floats) (n : ℕ) : Sound F n := by
  induction n with
  | zero =>
    refine ⟨?_, ?_, ?_⟩
    · intro s rest v h
      simp [scanValue] at h
    · intro items s rest v _ h
      simp [scanElements] at h
    · intro items s rest v _ _ h
      simp [scanMembers] at h
  | succ n ih =>
    refine ⟨?_, ?_, ?_⟩
    · intro s rest v h
      cases s with
      | nil => simp [scanValue] at h
      | cons c s =>
        rw [scanValue] at h
        split at h
        · cases hstring : scanString s with
          | error e => simp [hstring, Except.map] at h
          | ok r =>
            rw [hstring] at h
            cases h
            exact .str _
        split at h
        · split at h
          · cases h
            exact .seq [] (by simp)
          · exact ih.elements (by simp) h
        split at h
        · split at h
          · cases h
            exact .dict [] List.nodup_nil (by simp)
          · have hnil : (keysOf ([] : List (Str × Value))).Nodup := List.nodup_nil
            exact ih.members hnil (by simp) h
          · cases h
        · exact isJson_of_atom h
    · intro items s rest v hitems h
      rw [scanElements] at h
      split at h
      · cases h
      · next w after hvalue =>
        have hitems' : ∀ x ∈ items ++ [w], IsJson F x := by
          intro x hx
          rcases List.mem_append.mp hx with hx | hx
          · exact hitems x hx
          · rw [List.mem_singleton.mp hx]
            exact ih.value hvalue
        split at h
        · cases h
          exact .seq _ hitems'
        · exact ih.elements hitems' h
        · cases h
    · intro items s rest v hnodup hitems h
      rw [scanMembers] at h
      split at h
      · cases h
      next key after hkey =>
      split at h
      · split at h
        · cases h
        · next w after' hvalue =>
          have hnodup' := nodup_setItem hnodup key w
          have hitems' : ∀ x ∈ setItem items key w, IsJson F x.2 := by
            intro x hx
            rcases mem_setItem hx with rfl | hx
            · exact ih.value hvalue
            · exact hitems x hx
          split at h
          · cases h
            exact .dict _ hnodup' hitems'
          · split at h
            · exact ih.members hnodup' hitems' h
            · cases h
          · cases h
      · cases h

end JsonText

end DjangoBoilerplate
