import DjangoBoilerplate.Markers
import DjangoBoilerplate.Text

/-!
# The table of the environment variables

`scripts/dump_settings_schema.py` keeps a table in `docs/configuration.md` between two markers:
`--write` puts the table there, and `--check` compares the document with what would be written.

What is written is accepted afterwards unless the document had the first marker without the last
(`write_check_iff`): such a document gets a second table at its end, which the next run takes for
the end of the first one. The text around the markers is kept where the last one comes after the
first.

A document is the decoded text of its file, of which `read_text` makes all line breaks newlines,
and the variables are those the script has collected from the settings.
-/

namespace DjangoBoilerplate

namespace SettingsSchema

open Markers

/-! ## The script -/

/-- `BEGIN_MARKER` -/
def beginMarker : Str :=
  "<!-- BEGIN AUTO: env-vars table — generated by scripts/dump_settings_schema.py -->".toList

/-- `END_MARKER` -/
def endMarker : Str := "<!-- END AUTO -->".toList

/-- `EnvVar` -/
structure EnvVar : Type where
  /-- `name` -/
  name : Str
  /-- `default` -/
  default : Str
  /-- `typ` -/
  typ : Str
  /-- `line` -/
  line : ℕ

/-- The row of a variable. -/
def row (v : EnvVar) : Str :=
  "| `".toList ++ v.name ++ "` | `".toList ++ v.typ ++ "` | ".toList ++ v.default ++
    " | `config/settings/base.py:".toList ++ decimal v.line ++ "` |".toList

/-- The lines of the table. -/
def tableLines (vars : List EnvVar) : List Str :=
  [[], "| Env var | Type | Default | Source |".toList, "|---|---|---|---|".toList] ++ vars.map row

/-- `render_table(vars_)`. -/
def renderTable (vars : List EnvVar) : Str :=
  Str.join ['\n'] (beginMarker :: (tableLines vars ++ [[], endMarker]))

/-- The document where there is none. -/
def header : Str :=
  "# Configuration\n\n".toList ++
    "Every environment variable read by `config/settings/base.py`.\n".toList ++
    "The table below is regenerated by\n".toList ++
    "`scripts/dump_settings_schema.py`. Do not hand-edit the rows\n".toList ++
    "between the `BEGIN AUTO` / `END AUTO` markers — run the script\n".toList ++
    "instead. Prose around the markers is preserved.\n".toList ++ ['\n']

/-- `existing.rstrip()`. -/
def rstrip (s : Str) : Str := s.rdropWhile Str.isSpace

/-- `render_full_doc(table)`. -/
def renderFullDoc (doc : Option Str) (table : Str) : Str :=
  match doc with
  | none => header ++ table ++ ['\n']
  | some existing =>
    match partition beginMarker existing with
    | some (before, rest) =>
      if endMarker <:+: existing then
        before ++ table ++ ((partition endMarker rest).map Prod.snd).getD []
      else rstrip existing ++ ['\n', '\n'] ++ table ++ ['\n']
    | none => rstrip existing ++ ['\n', '\n'] ++ table ++ ['\n']

/-- `rendered`, for a document as it is read. -/
def rendered (doc : Option Str) (vars : List EnvVar) : Str := renderFullDoc doc (renderTable vars)

/-- `DOC_PATH.read_text()`: all line breaks are newlines. -/
def readText : Str → Str
  | '\r' :: '\n' :: rest => '\n' :: readText rest
  | '\r' :: rest => '\n' :: readText rest
  | c :: rest => c :: readText rest
  | [] => []

/-- The file after `--write`. -/
def write (file : Option Str) (vars : List EnvVar) : Str := rendered (file.map readText) vars

/-- The exit code of `--check`. -/
def check (file : Option Str) (vars : List EnvVar) : ℕ :=
  match file.map readText with
  | none => 1
  | some current => if current ≠ rendered (some current) vars then 1 else 0

/-! ## The table -/

/-- What stands between the markers, without the last newline. -/
def tableBody (vars : List EnvVar) : Str :=
  '\n' :: Str.join ['\n'] (tableLines vars ++ [[]])

theorem join_lines (line : Str) {lines : List Str} (h : lines ≠ []) :
    Str.join ['\n'] (line :: lines) = line ++ '\n' :: Str.join ['\n'] lines := by
  have hjoin := Str.join_append ['\n'] (List.cons_ne_nil line []) h
  rw [Str.join_singleton] at hjoin
  exact hjoin

theorem renderTable_eq (vars : List EnvVar) :
    renderTable vars = beginMarker ++ (tableBody vars ++ '\n' :: endMarker) := by
  have hlast : tableLines vars ++ [[], endMarker] = (tableLines vars ++ [[]]) ++ [endMarker] := by
    simp
  rw [renderTable, join_lines beginMarker (by simp), hlast, Str.join_concat _ _ (by simp)]
  rfl

theorem not_mem_beginMarker : '\n' ∉ beginMarker := by decide

theorem not_mem_endMarker : '\n' ∉ endMarker := by decide

theorem beginMarker_ne_nil : beginMarker ≠ [] := List.cons_ne_nil _ _

theorem endMarker_ne_nil : endMarker ≠ [] := List.cons_ne_nil _ _

/-- What stands in some lines, and is on one line itself, stands in one of them. -/
theorem exists_infix_of_infix_join {sep : Str} (hsep : '\n' ∉ sep) {lines : List Str}
    (hne : lines ≠ []) (h : sep <:+: Str.join ['\n'] lines) : ∃ line ∈ lines, sep <:+: line := by
  induction lines with
  | nil => exact absurd rfl hne
  | cons line lines ih =>
    rcases eq_or_ne lines [] with rfl | hlines
    · rw [Str.join_singleton] at h
      exact ⟨line, List.mem_cons_self, h⟩
    · rw [join_lines line hlines] at h
      rcases infix_append_cons hsep h with h | h
      · exact ⟨line, List.mem_cons_self, h⟩
      · obtain ⟨other, hother, h⟩ := ih hlines h
        exact ⟨other, List.mem_cons_of_mem _ hother, h⟩

/-- A text without the first character of a marker has no marker in it. -/
theorem not_infix_of_not_mem {sep s : Str} {c : Char} (hsep : c ∈ sep) (hs : c ∉ s) :
    ¬ sep <:+: s :=
  fun h => hs (h.subset hsep)

/-- The last marker is in the table only where it ends. -/
theorem not_infix_tableBody {vars : List EnvVar} (hvars : ∀ v ∈ vars, ¬ endMarker <:+: row v) :
    ¬ endMarker <:+: tableBody vars := by
  intro h
  have hbody : tableBody vars = [] ++ '\n' :: Str.join ['\n'] (tableLines vars ++ [[]]) := rfl
  have hmark : '<' ∈ endMarker := List.mem_cons_self
  rw [hbody] at h
  rcases infix_append_cons not_mem_endMarker h with h | h
  · exact not_infix_of_not_mem hmark List.not_mem_nil h
  · obtain ⟨line, hline, h⟩ := exists_infix_of_infix_join not_mem_endMarker (by simp) h
    simp only [tableLines, List.cons_append, List.nil_append, List.mem_cons, List.mem_append,
      List.mem_map, List.not_mem_nil, or_false] at hline
    rcases hline with rfl | rfl | rfl | ⟨v, hv, rfl⟩ | rfl
    · exact not_infix_of_not_mem hmark List.not_mem_nil h
    · exact not_infix_of_not_mem hmark (by decide) h
    · exact not_infix_of_not_mem hmark (by decide) h
    · exact hvars v hv h
    · exact not_infix_of_not_mem hmark List.not_mem_nil h

/-! ## Writing and checking -/

section Writing

variable {vars : List EnvVar}

/-- A table whose first marker is found is put where it is. -/
theorem renderFullDoc_of_front (hvars : ∀ v ∈ vars, ¬ endMarker <:+: row v) {before after : Str}
    (hfront : ∀ y, partition beginMarker (before ++ (beginMarker ++ y)) = some (before, y)) :
    renderFullDoc (some (before ++ renderTable vars ++ after)) (renderTable vars) =
      before ++ renderTable vars ++ after := by
  have htext : before ++ renderTable vars ++ after =
      before ++ (beginMarker ++ (tableBody vars ++ '\n' :: (endMarker ++ after))) := by
    rw [renderTable_eq]
    simp
  have hbegin := hfront (tableBody vars ++ '\n' :: (endMarker ++ after))
  have hend := partition_of_not_infix endMarker_ne_nil not_mem_endMarker
    (not_infix_tableBody hvars) after
  have hinfix : endMarker <:+: before ++ renderTable vars ++ after :=
    ⟨before ++ (beginMarker ++ (tableBody vars ++ ['\n'])), after, by rw [htext]; simp⟩
  rw [← htext] at hbegin
  simp only [renderFullDoc, hbegin, if_pos hinfix, hend]
  rfl

/-- A new first marker is found behind a text that has none and ends with a line. -/
theorem partition_behind_line {s : Str} (hs : ¬ beginMarker <:+: s) (y : Str) :
    partition beginMarker (s ++ ['\n'] ++ (beginMarker ++ y)) = some (s ++ ['\n'], y) := by
  have hfound := partition_of_not_infix beginMarker_ne_nil not_mem_beginMarker hs y
  rwa [show s ++ ['\n'] ++ (beginMarker ++ y) = s ++ '\n' :: (beginMarker ++ y) by simp]

/-- What ends with something other than white space is kept. -/
theorem exists_rstrip_append {s : Str} {c : Char} (hc : Str.isSpace c = false) (rest : Str) :
    ∃ rest', rstrip (s ++ [c] ++ rest) = s ++ [c] ++ rest' ∧ rest' <+: rest := by
  induction rest using List.reverseRecOn with
  | nil =>
    refine ⟨[], ?_, List.prefix_rfl⟩
    rw [List.append_nil, rstrip, List.rdropWhile_concat_neg _ _ _ (by simp [hc])]
  | append_singleton rest d ih =>
    rw [← List.append_assoc, rstrip, List.rdropWhile_concat]
    split
    · obtain ⟨rest', hrest, hprefix⟩ := ih
      exact ⟨rest', hrest, hprefix.trans (List.prefix_append _ _)⟩
    · exact ⟨rest ++ [d], by simp, List.prefix_rfl⟩

/-- Between the markers the table is replaced, and the text around them is kept. -/
theorem rendered_between {existing before rest old after : Str}
    (hbegin : partition beginMarker existing = some (before, rest))
    (hend : partition endMarker rest = some (old, after)) :
    rendered (some existing) vars = before ++ renderTable vars ++ after := by
  have hinfix : endMarker <:+: existing := by
    rw [append_of_partition hbegin, append_of_partition hend]
    exact ⟨before ++ (beginMarker ++ old), after, by simp⟩
  simp only [rendered, renderFullDoc, hbegin, if_pos hinfix, hend]
  rfl

/-- Where the first marker is depends on nothing that comes after it. -/
theorem exists_front {existing : Str} (hbegin : beginMarker <:+: existing) :
    ∃ before rest, partition beginMarker existing = some (before, rest) ∧
      existing = before ++ (beginMarker ++ rest) ∧
      ∀ y, partition beginMarker (before ++ (beginMarker ++ y)) = some (before, y) := by
  obtain ⟨⟨before, rest⟩, hparts⟩ : ∃ parts, partition beginMarker existing = some parts := by
    rw [← Option.ne_none_iff_exists']
    exact fun h => (partition_eq_none_iff beginMarker_ne_nil).mp h hbegin
  have hexisting := append_of_partition hparts
  refine ⟨before, rest, hparts, hexisting, ?_⟩
  rw [hexisting] at hparts
  exact partition_append_right hparts beginMarker_ne_nil

/-- A document with both markers keeps its table where it is. -/
theorem rendered_of_both (hvars : ∀ v ∈ vars, ¬ endMarker <:+: row v) {existing : Str}
    (hbegin : beginMarker <:+: existing) (hend : endMarker <:+: existing) :
    rendered (some (rendered (some existing) vars)) vars = rendered (some existing) vars := by
  obtain ⟨before, rest, hparts, -, hfront⟩ := exists_front hbegin
  have hrendered : rendered (some existing) vars = before ++ renderTable vars ++
      ((partition endMarker rest).map Prod.snd).getD [] := by
    simp only [rendered, renderFullDoc, hparts, if_pos hend]
  rw [hrendered]
  exact renderFullDoc_of_front hvars hfront

/-- One without the first marker gets a table at its end. -/
theorem rendered_of_neither (hvars : ∀ v ∈ vars, ¬ endMarker <:+: row v) {existing : Str}
    (hbegin : ¬ beginMarker <:+: existing) :
    rendered (some (rendered (some existing) vars)) vars = rendered (some existing) vars := by
  have hnone := (partition_eq_none_iff beginMarker_ne_nil).mpr hbegin
  have hstrip : ¬ beginMarker <:+: rstrip existing ++ ['\n'] := by
    intro h
    rcases infix_append_cons not_mem_beginMarker h with h | h
    · exact hbegin (h.trans (List.rdropWhile_prefix _ _).isInfix)
    · exact beginMarker_ne_nil (List.infix_nil.mp h)
  have hrendered : rendered (some existing) vars =
      rstrip existing ++ ['\n'] ++ ['\n'] ++ renderTable vars ++ ['\n'] := by
    simp only [rendered, renderFullDoc, hnone]
    simp
  rw [hrendered]
  exact renderFullDoc_of_front hvars (partition_behind_line hstrip)

/-- So does no document at all. -/
theorem rendered_of_none (hvars : ∀ v ∈ vars, ¬ endMarker <:+: row v) :
    rendered (some (rendered none vars)) vars = rendered none vars := by
  have hrendered : rendered none vars = header ++ renderTable vars ++ ['\n'] := rfl
  rw [hrendered]
  refine renderFullDoc_of_front hvars (partition_behind_line ?_)
  -- the first lines have no `<`
  refine not_infix_of_not_mem (c := '<') List.mem_cons_self ?_
  simp only [List.mem_append, not_or]
  exact ⟨⟨⟨⟨⟨by decide, by decide⟩, by decide⟩, by decide⟩, by decide⟩, by decide⟩

/-- The end of the first marker, which is no white space. -/
theorem beginMarker_eq : ∃ s, beginMarker = s ++ ['>'] := ⟨beginMarker.dropLast, rfl⟩

theorem not_infix_beginMarker : ¬ endMarker <:+: beginMarker := by
  rw [← partition_eq_none_iff endMarker_ne_nil]
  rfl

/-- White space goes only from behind the first marker. -/
theorem exists_rstrip_beginMarker (before rest : Str) :
    ∃ rest', rstrip (before ++ (beginMarker ++ rest)) = before ++ (beginMarker ++ rest') ∧
      rest' <+: rest := by
  obtain ⟨s, hs⟩ := beginMarker_eq
  obtain ⟨rest', hrest, hprefix⟩ := exists_rstrip_append (s := before ++ s) (c := '>')
    (by decide) rest
  refine ⟨rest', ?_, hprefix⟩
  rw [hs]
  simpa using hrest

/-- A second table behind a text without the last marker has it only where the table ends. -/
theorem not_infix_second (hvars : ∀ v ∈ vars, ¬ endMarker <:+: row v) {rest : Str}
    (hrest : ¬ endMarker <:+: rest) :
    ¬ endMarker <:+: rest ++ '\n' :: '\n' :: (beginMarker ++ tableBody vars) := by
  intro h
  rcases infix_append_cons not_mem_endMarker h with h | h
  · exact hrest h
  · rcases infix_append_cons (a := []) not_mem_endMarker h with h | h
    · exact endMarker_ne_nil (List.infix_nil.mp h)
    · rcases infix_append_cons (a := beginMarker) not_mem_endMarker h with h | h
      · exact not_infix_beginMarker h
      · exact not_infix_tableBody hvars (List.infix_cons h)

/-- A document with the first marker only gets a second table, which the next run would take for
the end of a first one. -/
theorem rendered_of_begin_only (hvars : ∀ v ∈ vars, ¬ endMarker <:+: row v) {existing : Str}
    (hbegin : beginMarker <:+: existing) (hend : ¬ endMarker <:+: existing) :
    rendered (some (rendered (some existing) vars)) vars ≠ rendered (some existing) vars := by
  obtain ⟨before, rest, hparts, hexisting, hfront⟩ := exists_front hbegin
  obtain ⟨rest', hstrip, hprefix⟩ := exists_rstrip_beginMarker before rest
  rw [← hexisting] at hstrip
  have hrest : ¬ endMarker <:+: rest' := by
    intro h
    refine hend ?_
    rw [hexisting]
    exact (h.trans hprefix.isInfix).trans ⟨before ++ beginMarker, [], by simp⟩
  have hrendered : rendered (some existing) vars = before ++ (beginMarker ++
      (rest' ++ '\n' :: '\n' :: (beginMarker ++ tableBody vars) ++
        '\n' :: (endMarker ++ ['\n']))) := by
    simp only [rendered, renderFullDoc, hparts, if_neg hend, hstrip, renderTable_eq]
    simp
  have hlast := partition_of_not_infix endMarker_ne_nil not_mem_endMarker
    (not_infix_second hvars hrest) ['\n']
  have hinfix : endMarker <:+: rendered (some existing) vars := by
    rw [hrendered]
    exact ⟨before ++ (beginMarker ++ (rest' ++ '\n' :: '\n' :: (beginMarker ++ tableBody vars) ++
      ['\n'])), ['\n'], by simp⟩
  have hagain : rendered (some (rendered (some existing) vars)) vars =
      before ++ renderTable vars ++ ['\n'] := by
    have hfirst := hfront (rest' ++ '\n' :: '\n' :: (beginMarker ++ tableBody vars) ++
      '\n' :: (endMarker ++ ['\n']))
    rw [← hrendered] at hfirst
    rw [rendered, renderFullDoc]
    simp only [hfirst, if_pos hinfix, hlast]
    rfl
  rw [hagain, hrendered, renderTable_eq]
  -- the next run would write less
  intro hsame
  have hlength := congrArg List.length hsame
  have hpos : 0 < beginMarker.length := List.length_pos_iff.mpr beginMarker_ne_nil
  simp only [List.length_append, List.length_cons, List.length_nil] at hlength
  omega

/-! ## Reading the file again -/

theorem not_mem_readText (s : Str) : '\r' ∉ readText s := by
  fun_induction readText s with
  | case1 rest ih | case2 rest _ ih => simp [ih]
  | case3 c rest _ hc ih =>
    simp only [List.mem_cons, not_or]
    exact ⟨fun h => hc h.symm, ih⟩
  | case4 => exact List.not_mem_nil

/-- A text with newlines only is read as it is. -/
theorem readText_eq_self {s : Str} (hs : '\r' ∉ s) : readText s = s := by
  induction s with
  | nil => rfl
  | cons c s ih =>
    simp only [List.mem_cons, not_or] at hs
    rw [readText, ih hs.2]
    · exact fun _ h _ => hs.1 h.symm
    · exact fun h => hs.1 h.symm

theorem not_mem_join {sep : Str} {c : Char} (hsep : c ∉ sep) {lines : List Str}
    (hlines : ∀ line ∈ lines, c ∉ line) : c ∉ Str.join sep lines := by
  cases lines with
  | nil => exact List.not_mem_nil
  | cons line lines =>
    obtain ⟨hline, hlines⟩ := List.forall_mem_cons.mp hlines
    rw [Str.join_cons]
    refine List.not_mem_append hline ?_
    intro h
    obtain ⟨other, hother, hmem⟩ := List.mem_flatMap.mp h
    exact List.not_mem_append hsep (hlines other hother) hmem

theorem not_mem_renderTable (hrows : ∀ v ∈ vars, '\r' ∉ row v) : '\r' ∉ renderTable vars := by
  refine not_mem_join (by decide) ?_
  intro line hline
  simp only [tableLines, List.cons_append, List.nil_append, List.mem_cons, List.mem_append,
    List.mem_map, List.not_mem_nil, or_false] at hline
  rcases hline with rfl | rfl | rfl | rfl | ⟨v, hv, rfl⟩ | rfl | rfl
  · decide
  · decide
  · decide
  · decide
  · exact hrows v hv
  · decide
  · decide

/-- A document with newlines only is written with newlines only. -/
theorem not_mem_rendered (hrows : ∀ v ∈ vars, '\r' ∉ row v) {doc : Option Str}
    (hdoc : ∀ existing, doc = some existing → '\r' ∉ existing) : '\r' ∉ rendered doc vars := by
  have htable := not_mem_renderTable hrows
  have hnewline : '\r' ∉ ['\n'] := by decide
  cases doc with
  | none => exact List.not_mem_append (List.not_mem_append (by decide) htable) hnewline
  | some existing =>
    have hexisting := hdoc existing rfl
    have happended : '\r' ∉ rstrip existing ++ ['\n', '\n'] ++ renderTable vars ++ ['\n'] := by
      refine List.not_mem_append (List.not_mem_append (List.not_mem_append ?_ (by decide)) htable)
        hnewline
      exact fun h => hexisting ((List.rdropWhile_prefix _ _).subset h)
    rw [rendered, renderFullDoc]
    split
    · next before rest hparts =>
      have hsplit := append_of_partition hparts
      rw [hsplit] at hexisting
      simp only [List.mem_append, not_or] at hexisting
      obtain ⟨hbefore, -, hrest⟩ := hexisting
      split
      · refine List.not_mem_append (List.not_mem_append hbefore htable) ?_
        cases hend : partition endMarker rest with
        | none => exact List.not_mem_nil
        | some parts =>
          rw [append_of_partition hend] at hrest
          simp only [List.mem_append, not_or] at hrest
          exact hrest.2.2
      · exact hsplit ▸ happended
    · exact happended

/-- What is written is accepted if writing it once more changes nothing. -/
theorem check_write_iff (hrows : ∀ v ∈ vars, '\r' ∉ row v) (file : Option Str) :
    check (some (write file vars)) vars = 0 ↔
      rendered (some (rendered (file.map readText) vars)) vars =
        rendered (file.map readText) vars := by
  have hwritten : '\r' ∉ rendered (file.map readText) vars := by
    refine not_mem_rendered hrows ?_
    intro existing h
    obtain ⟨text, -, rfl⟩ := Option.map_eq_some_iff.mp h
    exact not_mem_readText text
  simp only [check, write, Option.map_some, readText_eq_self hwritten]
  split
  · next h => simp [Ne.symm h]
  · next h => simp [(not_not.mp h).symm]

end Writing

/-- **What `--write` leaves, `--check` accepts, unless the document had the first marker without
the last; and where the last comes after the first, the text around them is kept, as it is read.**
-/
theorem write_check_iff (file : Option Str) {vars : List EnvVar}
    (hvars : ∀ v ∈ vars, ¬ endMarker <:+: row v) (hrows : ∀ v ∈ vars, '\r' ∉ row v) :
    (check (some (write file vars)) vars = 0 ↔
      ∀ existing, file.map readText = some existing →
        beginMarker <:+: existing → endMarker <:+: existing) ∧
    ∀ existing before rest old after, file.map readText = some existing →
      partition beginMarker existing = some (before, rest) →
      partition endMarker rest = some (old, after) →
      write file vars = before ++ renderTable vars ++ after := by
  refine ⟨?_, ?_⟩
  · rw [check_write_iff hrows]
    cases file.map readText with
    | none => exact iff_of_true (rendered_of_none hvars) nofun
    | some existing =>
      by_cases hbegin : beginMarker <:+: existing
      · by_cases hend : endMarker <:+: existing
        · refine iff_of_true (rendered_of_both hvars hbegin hend) ?_
          rintro other hother -
          obtain rfl := Option.some.inj hother
          exact hend
        · refine iff_of_false (rendered_of_begin_only hvars hbegin hend) ?_
          intro h
          exact hend (h existing rfl hbegin)
      · refine iff_of_true (rendered_of_neither hvars hbegin) ?_
        intro other hother h
        obtain rfl := Option.some.inj hother
        exact absurd h hbegin
  · intro existing before rest old after hfile hbegin hend
    rw [write, hfile]
    exact rendered_between hbegin hend

/-- The row of a variable has no marker, if its texts have no `<`. -/
theorem not_infix_row {v : EnvVar} (hname : '<' ∉ v.name) (hdefault : '<' ∉ v.default)
    (htyp : '<' ∉ v.typ) : ¬ endMarker <:+: row v := by
  have hmark : '<' ∈ endMarker := List.mem_cons_self
  refine not_infix_of_not_mem hmark ?_
  delta row
  refine List.not_mem_append ?_ (by decide)
  refine List.not_mem_append ?_ fun h => absurd (isDigit_of_mem_decimal h) (by decide)
  refine List.not_mem_append (List.not_mem_append ?_ hdefault) (by decide)
  refine List.not_mem_append (List.not_mem_append ?_ htyp) (by decide)
  exact List.not_mem_append (List.not_mem_append (by decide) hname) (by decide)

/-- The variable `DEBUG`. -/
def debugVar : EnvVar := ⟨"DEBUG".toList, "'False'".toList, "str".toList, 67⟩

/-- A document with a table between the markers, and Windows line breaks. -/
def oldDoc : Str := "above\r\n".toList ++ beginMarker ++ "old".toList ++ endMarker ++ "\r\nbelow".toList

/-- A first table is accepted; one in a document that has lost its last marker is not; and one
between the markers is replaced. -/
theorem write_check_debugVar :
    check (some (write none [debugVar])) [debugVar] = 0 ∧
      check (some (write (some beginMarker) [debugVar])) [debugVar] ≠ 0 ∧
      write (some oldDoc) [debugVar] =
        "above\n".toList ++ renderTable [debugVar] ++ "\nbelow".toList := by
  have hvars : ∀ v ∈ [debugVar], ¬ endMarker <:+: row v := by
    intro v hv
    obtain rfl := List.mem_singleton.mp hv
    exact not_infix_row (by decide) (by decide) (by decide)
  have hrows : ∀ v ∈ [debugVar], '\r' ∉ row v := by
    intro v hv
    obtain rfl := List.mem_singleton.mp hv
    decide
  refine ⟨(write_check_iff none hvars hrows).1.mpr nofun, fun h => ?_, ?_⟩
  · exact not_infix_beginMarker
      ((write_check_iff (some beginMarker) hvars hrows).1.mp h beginMarker rfl List.infix_rfl)
  · exact (write_check_iff (some oldDoc) hvars hrows).2 _ _ _ "old".toList _ rfl rfl rfl

end SettingsSchema

end DjangoBoilerplate
