import DjangoBoilerplate.Json

/-!
# Module scripts

What importing a Python module does, for modules that only bind names: a list of statements is run
from top to bottom on the globals of the module. An expression may read a global that is not
there, which raises `NameError`; a function is a global like any other.

`from m import *` binds the public names of `m`: not those that start with an underscore.

The frame rule is `getItem_run_of_not_mem`: a name that no statement binds is what it was. A
**regular** script, which a look at its text shows (`regular`), fails only where it calls a
function that fails (`exists_run_iff_calls`).
-/

namespace DjangoBoilerplate

namespace Scripts

variable {ε : Type}

/-- What a statement raises. -/
inductive Raised (ε : Type) : Type where
  /-- a name that is not bound -/
  | nameError (name : Str) : Raised ε
  /-- a call of something that is not a function -/
  | typeError : Raised ε
  /-- a method of `str` on something else -/
  | attributeError : Raised ε
  /-- a function object where the model has values only -/
  | unsupported : Raised ε
  /-- an error of the script's own -/
  | raised (error : ε) : Raised ε

/-- What a name is bound to. -/
inductive Obj (ε : Type) : Type where
  | value (v : Value) : Obj ε
  /-- a function of a variable's name and a default, by the variables of the process -/
  | function (f : (Str → Option Str) → Str → Str → Except ε Value) : Obj ε

/-- The globals of a module. -/
abbrev Globals (ε : Type) : Type := List (Str × Obj ε)

/-- An expression. -/
inductive Expr (ε : Type) : Type where
  /-- a literal -/
  | const (v : Value) : Expr ε
  /-- a global -/
  | name (n : Str) : Expr ε
  /-- `globals().get(n, default)` -/
  | globalsGet (n : Str) (default : Value) : Expr ε
  /-- `os.getenv(var, default)` -/
  | getenv (var : Str) (default : Value) : Expr ε
  /-- `f(var, default)` -/
  | call (f var default : Str) : Expr ε
  /-- something done to a `str` -/
  | text (f : Str → Value) (x : Expr ε) : Expr ε
  /-- the same, where it may fail -/
  | attempt (f : Str → Except ε Value) (x : Expr ε) : Expr ε
  /-- a test -/
  | test (p : Value → Bool) (x : Expr ε) : Expr ε
  /-- `x or y` -/
  | either (x y : Expr ε) : Expr ε
  /-- the empty `dict` -/
  | empty : Expr ε
  /-- a `dict` display, item by item -/
  | item (key : Str) (x rest : Expr ε) : Expr ε

/-- `not x` -/
def Expr.negate (x : Expr ε) : Expr ε := .test (fun v => !v.truthy) x

variable (vars : Str → Option Str)

/-- The value of an expression. -/
def Expr.eval (g : Globals ε) : Expr ε → Except (Raised ε) Value
  | .const v => .ok v
  | .name n =>
    match getItem g n with
    | some (.value v) => .ok v
    | some (.function _) => .error .unsupported
    | none => .error (.nameError n)
  | .globalsGet n default =>
    match getItem g n with
    | some (.value v) => .ok v
    | some (.function _) => .error .unsupported
    | none => .ok default
  | .getenv var default => .ok (((vars var).map Value.str).getD default)
  | .call f var default =>
    match getItem g f with
    | some (.function f) => (f vars var default).mapError .raised
    | some (.value _) => .error .typeError
    | none => .error (.nameError f)
  | .text f x => do
    match ← x.eval g with
    | .str s => return f s
    | _ => .error .attributeError
  | .attempt f x => do
    match ← x.eval g with
    | .str s => (f s).mapError .raised
    | _ => .error .attributeError
  | .test p x => do return .bool (p (← x.eval g))
  | .either x y => do
    let v ← x.eval g
    if v.truthy then return v else y.eval g
  | .empty => .ok (.dict [])
  | .item key x rest => do
    let v ← x.eval g
    match ← rest.eval g with
    | .dict items => return .dict ((key, v) :: items)
    | _ => .error .typeError

/-- A statement. -/
inductive Stmt (ε : Type) : Type where
  /-- `def f(name, default): ...` -/
  | define (n : Str) (f : (Str → Option Str) → Str → Str → Except ε Value) : Stmt ε
  /-- `n = x` -/
  | assign (n : Str) (x : Expr ε) : Stmt ε
  /-- `if x: raise error` -/
  | raiseIf (x : Expr ε) (error : ε) : Stmt ε
  /-- `if x: ... else: ...`, with assignments of literals or expressions on both sides -/
  | branch (x : Expr ε) (yes no : List (Str × Expr ε)) : Stmt ε

/-- Some assignments. -/
def assignAll (g : Globals ε) : List (Str × Expr ε) → Except (Raised ε) (Globals ε)
  | [] => .ok g
  | (n, x) :: rest => do assignAll (setItem g n (.value (← x.eval vars g))) rest

/-- One statement. -/
def Stmt.exec (g : Globals ε) : Stmt ε → Except (Raised ε) (Globals ε)
  | .define n f => .ok (setItem g n (.function f))
  | .assign n x => do return setItem g n (.value (← x.eval vars g))
  | .raiseIf x error => do
    if (← x.eval vars g).truthy then .error (.raised error) else return g
  | .branch x yes no => do
    if (← x.eval vars g).truthy then assignAll vars g yes else assignAll vars g no

/-- A script. -/
def run (g : Globals ε) : List (Stmt ε) → Except (Raised ε) (Globals ε)
  | [] => .ok g
  | s :: rest => do run (← s.exec vars g) rest

/-- `from m import *`. -/
def importStar (m : Globals ε) : Globals ε := m.filter fun b => !(['_'].isPrefixOf b.1)

/-! ## Rules -/

/-- The names a statement may bind. -/
def Stmt.binds : Stmt ε → List Str
  | .define n _ => [n]
  | .assign n _ => [n]
  | .raiseIf _ _ => []
  | .branch _ yes no => yes.map Prod.fst ++ no.map Prod.fst

/-- The names a script may bind. -/
def bound (script : List (Stmt ε)) : List Str := script.flatMap Stmt.binds

variable {vars}

theorem bind_eq_ok {κ α β : Type} {x : Except κ α} {f : α → Except κ β} {b : β} :
    x.bind f = .ok b ↔ ∃ a, x = .ok a ∧ f a = .ok b := by
  cases x with
  | error err => simp [Except.bind]
  | ok a => simp [Except.bind]

theorem run_cons_eq_ok {g g' : Globals ε} {s : Stmt ε} {rest : List (Stmt ε)} :
    run vars g (s :: rest) = .ok g' ↔
      ∃ m, s.exec vars g = .ok m ∧ run vars m rest = .ok g' :=
  bind_eq_ok

theorem run_append_eq_ok {g g' : Globals ε} {front back : List (Stmt ε)} :
    run vars g (front ++ back) = .ok g' ↔
      ∃ m, run vars g front = .ok m ∧ run vars m back = .ok g' := by
  induction front generalizing g with
  | nil => simp [run]
  | cons s front ih =>
    rw [List.cons_append, run_cons_eq_ok]
    simp only [ih, run_cons_eq_ok]
    constructor
    · rintro ⟨a, hs, b, hfront, hback⟩
      exact ⟨b, ⟨a, hs, hfront⟩, hback⟩
    · rintro ⟨b, ⟨a, hs, hfront⟩, hback⟩
      exact ⟨a, hs, b, hfront, hback⟩

/-- `if not x: raise error` -/
theorem exec_raiseIf_negate {g : Globals ε} {x : Expr ε} {v : Value} (hv : x.eval vars g = .ok v)
    (error : ε) :
    (Stmt.raiseIf x.negate error).exec vars g =
      if v.truthy then .ok g else .error (.raised error) := by
  have hnot : x.negate.eval vars g = .ok (.bool !v.truthy) := by
    rw [Expr.negate, Expr.eval, hv]
    rfl
  rw [Stmt.exec, hnot]
  cases v.truthy with
  | false => rfl
  | true => rfl

/-- The frame rule, for assignments. -/
theorem getItem_assignAll_of_not_mem {g g' : Globals ε} {assigns : List (Str × Expr ε)} {n : Str}
    (hn : n ∉ assigns.map Prod.fst) (h : assignAll vars g assigns = .ok g') :
    getItem g' n = getItem g n := by
  induction assigns generalizing g with
  | nil =>
    obtain rfl := Except.ok.inj h
    rfl
  | cons a assigns ih =>
    obtain ⟨name, x⟩ := a
    obtain ⟨v, -, hrest⟩ := bind_eq_ok.mp h
    rw [List.map_cons, List.mem_cons, not_or] at hn
    rw [ih hn.2 hrest, getItem_setItem, if_neg hn.1]

/-- For one statement. -/
theorem getItem_exec_of_not_mem {g g' : Globals ε} {s : Stmt ε} {n : Str} (hn : n ∉ s.binds)
    (h : s.exec vars g = .ok g') : getItem g' n = getItem g n := by
  cases s with
  | define name f =>
    obtain rfl := Except.ok.inj h
    rw [getItem_setItem, if_neg (List.ne_of_not_mem_cons hn)]
  | assign name x =>
    obtain ⟨v, -, hv⟩ := bind_eq_ok.mp h
    obtain rfl := Except.ok.inj hv
    rw [getItem_setItem, if_neg (List.ne_of_not_mem_cons hn)]
  | raiseIf x error =>
    obtain ⟨v, -, hv⟩ := bind_eq_ok.mp h
    split at hv
    · cases hv
    · obtain rfl := Except.ok.inj hv
      rfl
  | branch x yes no =>
    obtain ⟨v, -, hv⟩ := bind_eq_ok.mp h
    rw [Stmt.binds, List.mem_append, not_or] at hn
    split at hv
    · exact getItem_assignAll_of_not_mem hn.1 hv
    · exact getItem_assignAll_of_not_mem hn.2 hv

/-- **The frame rule.** -/
theorem getItem_run_of_not_mem {g g' : Globals ε} {script : List (Stmt ε)} {n : Str}
    (hn : n ∉ bound script) (h : run vars g script = .ok g') : getItem g' n = getItem g n := by
  induction script generalizing g with
  | nil =>
    obtain rfl := Except.ok.inj h
    rfl
  | cons s script ih =>
    obtain ⟨m, hs, hrest⟩ := run_cons_eq_ok.mp h
    rw [bound, List.flatMap_cons, List.mem_append, not_or] at hn
    rw [ih hn.2 hrest, getItem_exec_of_not_mem hn.1 hs]

/-- The last assignment to a name decides. -/
theorem getItem_run_of_assign {g g' : Globals ε} (front back : List (Stmt ε)) (n : Str)
    (x : Expr ε) (h : run vars g (front ++ .assign n x :: back) = .ok g')
    (hn : n ∉ bound back) :
    ∃ m v, run vars g front = .ok m ∧ x.eval vars m = .ok v ∧ getItem g' n = some (.value v) := by
  obtain ⟨m, hfront, hrest⟩ := run_append_eq_ok.mp h
  obtain ⟨k, hassign, hback⟩ := run_cons_eq_ok.mp hrest
  obtain ⟨v, hv, hk⟩ := bind_eq_ok.mp hassign
  obtain rfl := Except.ok.inj hk
  refine ⟨m, v, hfront, hv, ?_⟩
  rw [getItem_run_of_not_mem hn hback, getItem_setItem, if_pos rfl]

theorem eval_item_eq_ok {g : Globals ε} {key : Str} {x rest : Expr ε} {v : Value} :
    (Expr.item key x rest).eval vars g = .ok v ↔
      ∃ w items, x.eval vars g = .ok w ∧ rest.eval vars g = .ok (.dict items) ∧
        v = .dict ((key, w) :: items) := by
  constructor
  · intro h
    obtain ⟨w, hw, h⟩ := bind_eq_ok.mp h
    obtain ⟨r, hr, h⟩ := bind_eq_ok.mp h
    split at h
    · exact ⟨w, _, hw, hr, (Except.ok.inj h).symm⟩
    · cases h
  · rintro ⟨w, items, hw, hrest, rfl⟩
    rw [Expr.eval, hw, hrest]
    rfl

/-! ## Regular scripts -/

/-- A function, as a name may be bound to it. -/
abbrev Function (ε : Type) : Type := (Str → Option Str) → Str → Str → Except ε Value

/-- Is the value a `str`, if these names are? -/
def Expr.isText (texts : List Str) : Expr ε → Bool
  | .const (.str _) => true
  | .name n => texts.contains n
  | .getenv _ (.str _) => true
  | _ => false

/-- Is it a `dict` display? -/
def Expr.isDisplay : Expr ε → Bool
  | .empty => true
  | .item _ _ _ => true
  | _ => false

/-- The calls in an expression. -/
def Expr.calls : Expr ε → List (Str × Str × Str)
  | .call f var default => [(f, var, default)]
  | .text _ x => x.calls
  | .attempt _ x => x.calls
  | .test _ x => x.calls
  | .either x y => x.calls ++ y.calls
  | .item _ x rest => x.calls ++ rest.calls
  | _ => []

/-- Do the names it reads have what it wants, if these names are functions and `str`s? -/
def Expr.regular (functions texts : List Str) : Expr ε → Bool
  | .const _ => true
  | .name n => texts.contains n
  | .globalsGet _ _ => false
  | .getenv _ _ => true
  | .call f _ _ => functions.contains f
  | .text _ x => x.isText texts
  | .attempt _ _ => false
  | .test _ x => x.regular functions texts
  -- the right side is not always evaluated
  | .either x y => x.regular functions texts && y.regular functions texts && y.calls.isEmpty
  | .empty => true
  | .item _ x rest => x.regular functions texts && rest.regular functions texts && rest.isDisplay

/-- The same for a statement. -/
def Stmt.regular (functions texts : List Str) : Stmt ε → Bool
  | .define _ _ => false
  | .assign n x => x.regular functions texts && !functions.contains n
  | .raiseIf _ _ => false
  | .branch x yes no =>
    x.regular functions texts && x.calls.isEmpty &&
      (yes ++ no).all fun a => a.2.regular functions texts && a.2.calls.isEmpty &&
        !functions.contains a.1 && !texts.contains a.1

/-- The names that are `str`s after it. -/
def Stmt.texts (texts : List Str) : Stmt ε → List Str
  | .assign n x => if x.isText texts then n :: texts else texts.filter (· ≠ n)
  | _ => texts

/-- The same for a script. -/
def regular (functions : List Str) : List Str → List (Stmt ε) → Bool
  | _, [] => true
  | texts, s :: rest => s.regular functions texts && regular functions (s.texts texts) rest

/-- The names that are `str`s after a script. -/
def textsAfter : List Str → List (Stmt ε) → List Str
  | texts, [] => texts
  | texts, s :: rest => textsAfter (s.texts texts) rest

/-- The calls in a statement. -/
def Stmt.calls : Stmt ε → List (Str × Str × Str)
  | .assign _ x => x.calls
  | _ => []

/-- The functions and the `str`s are there. -/
structure Scope (functions : List (Str × Function ε)) (texts : List Str) (g : Globals ε) : Prop where
  function : ∀ {n f}, getItem functions n = some f → getItem g n = some (.function f)
  text : ∀ {n}, n ∈ texts → ∃ s, getItem g n = some (.value (.str s))

/-- Does this call return? -/
def Returns (vars : Str → Option Str) (functions : List (Str × Function ε))
    (c : Str × Str × Str) : Prop :=
  ∃ f v, getItem functions c.1 = some f ∧ f vars c.2.1 c.2.2 = .ok v

variable {functions : List (Str × Function ε)} {texts : List Str} {g : Globals ε}

theorem returns_iff {n var default : Str} {f : Function ε} (hf : getItem functions n = some f) :
    Returns vars functions (n, var, default) ↔ ∃ v, f vars var default = .ok v := by
  constructor
  · rintro ⟨f', v, hf', hv⟩
    obtain rfl := Option.some.inj (hf.symm.trans hf')
    exact ⟨v, hv⟩
  · rintro ⟨v, hv⟩
    exact ⟨f, v, hf, hv⟩

variable (vars) in
/-- What looks like a `str` is one. -/
theorem eval_of_isText (hscope : Scope functions texts g) {x : Expr ε}
    (hx : x.isText texts = true) : ∃ s, x.eval vars g = .ok (.str s) := by
  unfold Expr.isText at hx
  split at hx
  · exact ⟨_, rfl⟩
  · obtain ⟨s, hs⟩ := hscope.text (List.contains_iff_mem.mp hx)
    exact ⟨s, by rw [Expr.eval, hs]⟩
  · next var s =>
    cases hvar : vars var with
    | none => exact ⟨s, by rw [Expr.eval, hvar]; rfl⟩
    | some t => exact ⟨t, by rw [Expr.eval, hvar]; rfl⟩
  · cases hx

/-- What looks like a `dict` is one. -/
theorem eval_of_isDisplay {x : Expr ε} {v : Value} (hx : x.isDisplay = true)
    (h : x.eval vars g = .ok v) : ∃ items, v = .dict items := by
  cases x with
  | empty => exact ⟨[], (Except.ok.inj h).symm⟩
  | item key x rest =>
    obtain ⟨w, items, -, -, hv⟩ := eval_item_eq_ok.mp h
    exact ⟨_, hv⟩
  | _ => cases hx

variable (vars) in
/-- A regular expression has a value exactly if its calls return. -/
theorem exists_eval_iff_calls (hscope : Scope functions texts g) {x : Expr ε}
    (hx : x.regular (keysOf functions) texts = true) :
    (∃ v, x.eval vars g = .ok v) ↔ ∀ c ∈ x.calls, Returns vars functions c := by
  induction x with
  | const v => exact ⟨fun _ _ hc => absurd hc List.not_mem_nil, fun _ => ⟨v, rfl⟩⟩
  | name n =>
    obtain ⟨s, hs⟩ := eval_of_isText vars hscope (x := .name n) hx
    exact ⟨fun _ _ hc => absurd hc List.not_mem_nil, fun _ => ⟨_, hs⟩⟩
  | globalsGet n default => cases hx
  | getenv var default => exact ⟨fun _ _ hc => absurd hc List.not_mem_nil, fun _ => ⟨_, rfl⟩⟩
  | call f var default =>
    obtain ⟨F, hF⟩ := Option.isSome_iff_exists.mp
      (getItem_isSome_iff.mpr (List.contains_iff_mem.mp hx))
    rw [Expr.calls, List.forall_mem_singleton, returns_iff hF]
    simp only [Expr.eval, hscope.function hF]
    cases F vars var default with
    | error err => simp [Except.mapError]
    | ok v => simp [Except.mapError]
  | text f x ih =>
    change x.isText texts = true at hx
    obtain ⟨s, hs⟩ := eval_of_isText vars hscope hx
    have hcalls : x.calls = [] := by
      unfold Expr.isText at hx
      split at hx
      · rfl
      · rfl
      · rfl
      · cases hx
    rw [Expr.calls, hcalls]
    refine ⟨fun _ _ hc => absurd hc List.not_mem_nil, fun _ => ⟨f s, ?_⟩⟩
    rw [Expr.eval, hs]
    rfl
  | attempt f x ih => cases hx
  | test p x ih =>
    rw [Expr.calls, ← ih hx]
    constructor
    · rintro ⟨v, hv⟩
      obtain ⟨w, hw, -⟩ := bind_eq_ok.mp hv
      exact ⟨w, hw⟩
    · rintro ⟨w, hw⟩
      exact ⟨.bool (p w), by rw [Expr.eval, hw]; rfl⟩
  | either x y ihx ihy =>
    simp only [Expr.regular, Bool.and_eq_true, List.isEmpty_iff] at hx
    obtain ⟨⟨hx, hy⟩, hcalls⟩ := hx
    rw [Expr.calls, hcalls, List.append_nil, ← ihx hx]
    constructor
    · rintro ⟨v, hv⟩
      obtain ⟨w, hw, -⟩ := bind_eq_ok.mp hv
      exact ⟨w, hw⟩
    · rintro ⟨w, hw⟩
      obtain ⟨z, hz⟩ := (ihy hy).mpr (by simp [hcalls])
      refine ⟨if w.truthy then w else z, ?_⟩
      rw [Expr.eval, hw]
      cases htruthy : w.truthy with
      | false => simpa [bind, Except.bind, htruthy] using hz
      | true => simp [bind, Except.bind, htruthy, pure, Except.pure]
  | empty => exact ⟨fun _ _ hc => absurd hc List.not_mem_nil, fun _ => ⟨_, rfl⟩⟩
  | item key x rest ihx ihrest =>
    simp only [Expr.regular, Bool.and_eq_true] at hx
    obtain ⟨⟨hx, hrest⟩, hdisplay⟩ := hx
    rw [Expr.calls, List.forall_mem_append, ← ihx hx, ← ihrest hrest]
    constructor
    · rintro ⟨v, hv⟩
      obtain ⟨w, items, hw, hr, -⟩ := eval_item_eq_ok.mp hv
      exact ⟨⟨w, hw⟩, ⟨_, hr⟩⟩
    · rintro ⟨⟨w, hw⟩, r, hr⟩
      obtain ⟨items, rfl⟩ := eval_of_isDisplay hdisplay hr
      exact ⟨_, eval_item_eq_ok.mpr ⟨w, items, hw, hr, rfl⟩⟩

/-- An assignment keeps the scope. -/
theorem Scope.setItem (hscope : Scope functions texts g) {n : Str} {x : Expr ε} {v : Value}
    (hn : n ∉ keysOf functions) (hv : x.eval vars g = .ok v) :
    Scope functions ((Stmt.assign n x).texts texts) (setItem g n (.value v)) := by
  refine ⟨?_, ?_⟩
  · intro k f hf
    have hne : k ≠ n := by
      rintro rfl
      exact hn (getItem_isSome_iff.mp (hf ▸ rfl))
    rw [getItem_setItem, if_neg hne, hscope.function hf]
  · intro k hk
    rw [getItem_setItem]
    rw [Stmt.texts] at hk
    split at hk
    · next htext =>
      split
      · obtain ⟨s, hs⟩ := eval_of_isText vars hscope htext
        obtain rfl := Except.ok.inj (hv.symm.trans hs)
        exact ⟨s, rfl⟩
      · next hne => exact hscope.text (List.mem_of_ne_of_mem hne hk)
    · rw [List.mem_filter, decide_eq_true_iff] at hk
      rw [if_neg hk.2]
      exact hscope.text hk.1

/-- So does binding a name that it does not have. -/
theorem Scope.setOther (hscope : Scope functions texts g) {n : Str} (hn : n ∉ keysOf functions)
    (hnew : n ∉ texts) (v : Obj ε) : Scope functions texts (DjangoBoilerplate.setItem g n v) := by
  refine ⟨fun {k f} hf => ?_, fun {k} hk => ?_⟩
  · have hne : k ≠ n := by
      rintro rfl
      exact hn (getItem_isSome_iff.mp (hf ▸ rfl))
    rw [getItem_setItem, if_neg hne, hscope.function hf]
  · have hne : k ≠ n := by
      rintro rfl
      exact hnew hk
    rw [getItem_setItem, if_neg hne]
    exact hscope.text hk

/-- Fewer names. -/
theorem Scope.mono (hscope : Scope functions texts g) {fewer : List Str} (h : fewer ⊆ texts) :
    Scope functions fewer g :=
  ⟨hscope.function, fun hn => hscope.text (h hn)⟩

variable (vars) in
/-- One branch of a regular `if`. -/
theorem assignAll_regular (hscope : Scope functions texts g) {assigns : List (Str × Expr ε)}
    (h : ∀ a ∈ assigns, a.2.regular (keysOf functions) texts = true ∧ a.2.calls = [] ∧
      a.1 ∉ keysOf functions ∧ a.1 ∉ texts) :
    ∃ m, assignAll vars g assigns = .ok m ∧ Scope functions texts m := by
  induction assigns generalizing g with
  | nil => exact ⟨g, rfl, hscope⟩
  | cons a assigns ih =>
    obtain ⟨n, x⟩ := a
    obtain ⟨⟨hx, hcalls, hn, hnew⟩, hrest⟩ := List.forall_mem_cons.mp h
    obtain ⟨v, hv⟩ := (exists_eval_iff_calls vars hscope hx).mpr (by simp [hcalls])
    obtain ⟨m, hm, hscope'⟩ := ih (hscope.setOther hn hnew (.value v)) hrest
    exact ⟨m, by rw [assignAll, hv]; exact hm, hscope'⟩

variable (vars) in
/-- A regular statement ends exactly if its calls return, and then the scope is as it says. -/
theorem Stmt.exec_regular (hscope : Scope functions texts g) {s : Stmt ε}
    (hs : s.regular (keysOf functions) texts = true) :
    ((∃ m, s.exec vars g = .ok m) ↔ ∀ c ∈ s.calls, Returns vars functions c) ∧
      ∀ m, s.exec vars g = .ok m → Scope functions (s.texts texts) m := by
  cases s with
  | define n f => cases hs
  | raiseIf x error => cases hs
  | assign n x =>
    simp only [Stmt.regular, Bool.and_eq_true, Bool.not_eq_true', List.contains_eq_mem,
      decide_eq_false_iff_not] at hs
    refine ⟨?_, ?_⟩
    · rw [Stmt.calls, ← exists_eval_iff_calls vars hscope hs.1]
      constructor
      · rintro ⟨m, hm⟩
        obtain ⟨v, hv, -⟩ := bind_eq_ok.mp hm
        exact ⟨v, hv⟩
      · rintro ⟨v, hv⟩
        exact ⟨_, by rw [Stmt.exec, hv]; rfl⟩
    · intro m hm
      obtain ⟨v, hv, hm⟩ := bind_eq_ok.mp hm
      obtain rfl := Except.ok.inj hm
      exact hscope.setItem hs.2 hv
  | branch x yes no =>
    simp only [Stmt.regular, Bool.and_eq_true, List.isEmpty_iff, List.all_eq_true,
      Bool.not_eq_true', List.contains_eq_mem, decide_eq_false_iff_not, and_assoc] at hs
    obtain ⟨hx, hcalls, hassigns⟩ := hs
    rw [List.forall_mem_append] at hassigns
    obtain ⟨v, hv⟩ := (exists_eval_iff_calls vars hscope hx).mpr (by simp [hcalls])
    obtain ⟨m, hm, hscope'⟩ : ∃ m, (if v.truthy then assignAll vars g yes
        else assignAll vars g no) = .ok m ∧ Scope functions texts m := by
      split
      · exact assignAll_regular vars hscope hassigns.1
      · exact assignAll_regular vars hscope hassigns.2
    have hexec : (Stmt.branch x yes no).exec vars g = .ok m := by
      rw [Stmt.exec, hv]
      exact hm
    refine ⟨⟨fun _ _ hc => absurd hc List.not_mem_nil, fun _ => ⟨m, hexec⟩⟩, ?_⟩
    intro m' hm'
    obtain rfl := Except.ok.inj (hexec.symm.trans hm')
    exact hscope'

variable (vars) in
/-- **Regular scripts.** Such a script runs to its end exactly if all its calls return. -/
theorem exists_run_iff_calls (hscope : Scope functions texts g) {script : List (Stmt ε)}
    (hregular : regular (keysOf functions) texts script = true) :
    (∃ g', run vars g script = .ok g') ↔
      ∀ c ∈ script.flatMap Stmt.calls, Returns vars functions c := by
  induction script generalizing g texts with
  | nil => exact ⟨fun _ _ hc => absurd hc List.not_mem_nil, fun _ => ⟨g, rfl⟩⟩
  | cons s script ih =>
    simp only [regular, Bool.and_eq_true] at hregular
    obtain ⟨hexec, hafter⟩ := Stmt.exec_regular vars hscope hregular.1
    rw [List.flatMap_cons, List.forall_mem_append, ← hexec]
    constructor
    · rintro ⟨g', hg'⟩
      obtain ⟨m, hm, hrest⟩ := run_cons_eq_ok.mp hg'
      exact ⟨⟨m, hm⟩, (ih (hafter m hm) hregular.2).mp ⟨g', hrest⟩⟩
    · rintro ⟨⟨m, hm⟩, hcalls⟩
      obtain ⟨g', hrest⟩ := (ih (hafter m hm) hregular.2).mpr hcalls
      exact ⟨g', run_cons_eq_ok.mpr ⟨m, hm, hrest⟩⟩

/-- And leaves the scope as it says. -/
theorem Scope.run (hscope : Scope functions texts g) {script : List (Stmt ε)} {g' : Globals ε}
    (hregular : regular (keysOf functions) texts script = true)
    (h : Scripts.run vars g script = .ok g') : Scope functions (textsAfter texts script) g' := by
  induction script generalizing g texts with
  | nil =>
    obtain rfl := Except.ok.inj h
    exact hscope
  | cons s script ih =>
    simp only [regular, Bool.and_eq_true] at hregular
    obtain ⟨m, hm, hrest⟩ := run_cons_eq_ok.mp h
    exact ih ((Stmt.exec_regular vars hscope hregular.1).2 m hm) hregular.2 hrest

end Scripts

end DjangoBoilerplate
