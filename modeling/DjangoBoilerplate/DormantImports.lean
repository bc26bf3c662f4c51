import DjangoBoilerplate.Imports
import DjangoBoilerplate.SourceLines

/-!
# The dormant-import gate

`scripts/check_dormant_imports.py` keeps live modules from importing dormant ones: files under
`apps/` that `.coveragerc` omits and whose docstring says so. It knows a dormant file by one dotted
name, that of its path below `apps/`, and resolves the imports of a module to such names.

`join_mem_resolveImportNames` says that these names, which the gate puts together from texts, are
the modules Python resolves an import to, in a package that begins below `apps/`.
-/

namespace DjangoBoilerplate

namespace Dormant

open Imports

/-! ## Projects -/

/-- `apps`, the directory of the apps. -/
def apps : Str := "apps".toList

/-- A directory whose modules are checked. -/
inductive Top : Type where
  /-- `apps/` -/
  | apps : Top
  /-- `config/` -/
  | config : Top
deriving DecidableEq

/-- The name of the directory. -/
def Top.name : Top → Str
  | .apps => Dormant.apps
  | .config => "config".toList

/-- A `*.py` file in one of the directories. -/
structure File : Type where
  /-- the directory -/
  top : Top
  /-- the directories below it -/
  dirs : List Str
  /-- the name without `.py` -/
  stem : Str
  /-- `path.read_text()` -/
  source : Str
  /-- modules and packages have names without dots -/
  parts_ok : ∀ part ∈ stem :: dirs, part ≠ [] ∧ '.' ∉ part ∧ '/' ∉ part
  /-- reading a text translates its newlines -/
  source_ok : '\r' ∉ source

namespace File

variable (f : File)

/-- `path.name`. -/
def name : Str := f.stem ++ ".py".toList

/-- `rel.parts`. -/
def parts : List Str := f.top.name :: f.dirs ++ [f.name]

/-- `str(path.relative_to(cwd))`. -/
def rel : Str := Str.join ['/'] f.parts

end File

/-- A parsed module: `ast.get_docstring(tree)` and `tree`. -/
structure Module : Type where
  /-- the docstring -/
  docstring : Option Str
  /-- the tree -/
  tree : Node

/-- What the grammar says of a `from` statement: a module is not empty, and names have no dots. -/
def WellFormed : Node → Prop
  | .importFrom module names _ _ => module ≠ some [] ∧ ∀ name ∈ names, '.' ∉ name
  | .importNames _ _ => True
  | .other _ => True

/-- `ast.parse` and the Unicode tables of `re`. -/
structure Python : Type where
  /-- `ast.parse(source)`; `none` is the `SyntaxError` -/
  parse : Str → Option Module
  /-- `\w` -/
  isWord : Char → Bool
  /-- statements are as the grammar has them -/
  parse_ok : ∀ {source : Str} {m : Module}, parse source = some m →
    ∀ node : Node, node.Within m.tree → WellFormed node

/-- A project directory. -/
structure Project : Type where
  /-- `Path.cwd().parts` -/
  cwd : List Str
  /-- `parser.get("run", "omit", fallback="")` of `.coveragerc`, if there is such a file -/
  coveragerc : Option Str
  /-- the `*.py` files, sorted -/
  files : List File
  /-- `(cwd / entry).is_file()` -/
  isFile : Str → Bool

/-! ## The dormant set -/

/-- `_strip_inline_comment(line)`. -/
def stripInlineComment (line : Str) : Str := line.takeWhile fun c => c != '#'

/-- `_load_omit_paths(cwd)`, from the value in `.coveragerc`. -/
def loadOmitPaths (raw : Str) : List Str :=
  (raw.splitlines.map fun line => (stripInlineComment line).strip).filter fun cleaned =>
    !cleaned.isEmpty && "apps/".toList.isPrefixOf cleaned && !cleaned.contains '*'

/-- `"tests" in path.parts or path.name.startswith("test_")`. -/
def isTestPath (parts : List Str) (name : Str) : Bool :=
  parts.contains "tests".toList || "test_".toList.isPrefixOf name

section

variable (py : Python)

/-- `Dormant\b[^:\n]*:` at the beginning of a text. -/
def markerAt (s : Str) : Bool :=
  match Str.afterText "Dormant".toList s with
  | some rest =>
    !rest.head?.any py.isWord &&
      (rest.dropWhile fun c => c != ':' && c != '\n').head? == some ':'
  | none => false

/-- `_MARKER_RE.search(doc)`, with the character before. -/
def searchMarker (before : Option Char) : Str → Bool
  | [] => false
  | c :: s => (!before.any py.isWord && markerAt py (c :: s)) || searchMarker (some c) s

/-- `_module_docstring(path)`. -/
def moduleDocstring (f : File) : Option Str := (py.parse f.source).bind Module.docstring

/-- `doc and _MARKER_RE.search(doc)`. -/
def marked (f : File) : Bool :=
  match moduleDocstring py f with
  | some doc => !doc.isEmpty && searchMarker py none doc
  | none => false

/-- `_scan_dormant_markers(cwd)`. The paths are absolute here. -/
def scanDormantMarkers (p : Project) : List Str :=
  (p.files.filter fun f =>
    f.top = .apps && !isTestPath (p.cwd ++ f.parts) f.name && marked py f).map File.rel

/-- `_check_drift(omit, markers, cwd)`. -/
def checkDrift (p : Project) (omitted markers : List Str) : List Str :=
  ((omitted.filter fun entry => !markers.contains entry).map fun entry =>
    "dormant-set drift: ".toList ++ entry ++
      if p.isFile entry then
        " omitted in .coveragerc but missing 'Dormant:' module-docstring marker".toList
      else " omitted in .coveragerc but file does not exist".toList) ++
  (markers.filter fun entry => !omitted.contains entry).map fun entry =>
    "dormant-set drift: ".toList ++ entry ++
      " carries 'Dormant:' docstring marker but is not in .coveragerc [run] omit".toList

/-- `_dotted_names_for(entry)`. -/
def dottedNamesFor (entry : Str) : Str :=
  let relative := if "apps/".toList.isPrefixOf entry then entry.drop 5 else entry
  let relative :=
    if ".py".toList.isSuffixOf relative then relative.take (relative.length - 3) else relative
  Str.replaceChar relative '/' ['.']

/-- `Path(entry)`. -/
def pathOf (entry : Str) : List Str :=
  (Str.split '/' entry).filter fun part => part != [] && part != ['.']

/-! ## The walk -/

/-- The package of a file below `apps/`, as `_resolve_import_names` has it: `parts[:-1]`, without
the first part if that is `apps`. -/
def File.anchor (f : File) : List Str :=
  match f.top with
  | .apps => f.dirs
  | .config => f.top.name :: f.dirs

/-- `full_base` of a `from` statement; `none` is the early return. -/
def fullBase (anchor : List Str) (module : Option Str) (level : ℕ) : Option Str :=
  let base := module.getD []
  if level ≠ 0 then
    if level > anchor.length then none
    else
      let prefixParts := anchor.take (anchor.length - level + 1)
      some (if base ≠ [] then Str.join ['.'] (prefixParts ++ [base])
        else Str.join ['.'] prefixParts)
  else some base

/-- `_resolve_import_names(node, path, cwd)`. -/
def resolveImportNames (anchor : List Str) : Node → List Str
  | .importNames names _ => names
  | .importFrom module names level _ =>
    match fullBase anchor module level with
    | some base =>
      if base ≠ [] then
        base :: (names.filter fun name => name != ['*']).map fun name => base ++ '.' :: name
      else []
    | none => []
  | .other _ => []

/-- What is printed about a file. -/
inductive Finding : Type where
  /-- `syntax error` -/
  | syntaxError (rel : Str) : Finding
  /-- `dormant import` -/
  | dormantImport (rel : Str) (lineno : ℕ) (dotted : Str) : Finding

/-- Is there a waiver on the lines of a statement? -/
def waivedOn (sourceLines : List Str) : Node → Bool
  | .importFrom _ _ _ lines | .importNames _ lines =>
    lineHasWaiver sourceLines lines.first (if lines.last ≠ 0 then lines.last else lines.first)
  | .other _ => false

/-- `node.lineno`. -/
def lineno : Node → ℕ
  | .importFrom _ _ _ lines | .importNames _ lines => lines.first
  | .other _ => 0

/-- The loop over the names of a node: the first dormant one without a waiver is reported. -/
def nodeFindings (dormantDotted : List Str) (f : File) (node : Node) : List Finding :=
  match (resolveImportNames f.anchor node).find? fun dotted =>
      dormantDotted.contains dotted && !waivedOn f.source.splitlines node with
  | some dotted => [.dormantImport f.rel (lineno node) dotted]
  | none => []

/-- The loop body of `main` for a file that is read. -/
def fileFindings (dormantDotted : List Str) (f : File) : List Finding :=
  match py.parse f.source with
  | none => [.syntaxError f.rel]
  | some m => (walk [m.tree]).flatMap (nodeFindings dormantDotted f)

/-- `_walk_targets(cwd)`. -/
def walkTargets (p : Project) : List File :=
  (p.files.filter fun f => f.top = .apps) ++ p.files.filter fun f => f.top = .config

/-- The files that are read: neither dormant nor tests. -/
def readFiles (p : Project) (omitted : List Str) : List File :=
  (walkTargets p).filter fun f =>
    !(omitted.map pathOf).contains f.parts && !isTestPath f.parts f.name

/-- `main()`: the exit code. -/
def main (p : Project) : ℕ :=
  match p.coveragerc with
  | none => 2
  | some raw =>
    let omitted := loadOmitPaths raw
    if checkDrift p omitted (scanDormantMarkers py p) ≠ [] then 2
    else if (readFiles p omitted).flatMap (fileFindings py (omitted.map dottedNamesFor)) ≠ [] then 1
    else 0

end

/-! ## What a statement imports -/

namespace File

variable (f : File)

/-- The path of the module below its directory. -/
def path : List Str := f.dirs ++ [f.stem]

/-- The package of the module. -/
def package : List Str := f.top.name :: f.dirs

/-- The modules a file is: the one named as the file is, and the package if the file is its
`__init__.py`. -/
def modules : List (List Str) :=
  (f.package ++ [f.stem]) :: if f.stem = "__init__".toList then [f.package] else []

end File

/-- A relative import. -/
def isRelative : Node → Bool
  | .importFrom _ _ level _ => level != 0
  | .importNames _ _ => false
  | .other _ => false

/-- Where the modules lie that a statement in a file imports. An absolute name is looked up in the
project and in `apps/`, so that `core.x` and `apps.core.x` name the same module. -/
def locations (f : File) (node : Node) : List (List Str) :=
  if isRelative node then imported f.package node
  else (imported f.package node).flatMap fun path => [path, apps :: path]

section

variable (p : Project) (omitted : List Str)

/-- A file of the dormant set. -/
structure IsDormant (d : File) : Prop where
  /-- it is a file -/
  mem : d ∈ p.files
  /-- under `apps/` -/
  top : d.top = .apps
  /-- that is omitted -/
  rel : d.rel ∈ omitted

/-- A live module that is no test. -/
structure IsLive (f : File) : Prop where
  /-- it is a file -/
  mem : f ∈ p.files
  /-- that is not omitted -/
  rel : f.rel ∉ omitted
  /-- and no test -/
  test : isTestPath f.parts f.name = false

/-- The statement resolves to a dormant module. -/
def Resolves (f : File) (node : Node) : Prop :=
  ∃ d, IsDormant p omitted d ∧ ∃ location ∈ locations f node, location ∈ d.modules

/-- The gate recognises it: one of the names it has for the statement is that of a dormant file. -/
def Recognised (f : File) (node : Node) : Prop :=
  ∃ d, IsDormant p omitted d ∧ d.path ∈ imported f.anchor node

/-- The omit list and the docstrings agree: omitted are the files that are marked. -/
structure Agrees (py : Python) (raw : Str) : Prop where
  /-- there is an omit list -/
  coveragerc : p.coveragerc = some raw
  /-- of the marked files -/
  entries : ∀ entry, entry ∈ loadOmitPaths raw ↔
    ∃ f ∈ p.files, f.top = .apps ∧ isTestPath f.parts f.name = false ∧ marked py f = true ∧
      f.rel = entry

end

/-! ## Paths and names -/

namespace File

variable {f : File}

theorem stem_ok : f.stem ≠ [] ∧ '.' ∉ f.stem ∧ '/' ∉ f.stem :=
  f.parts_ok f.stem List.mem_cons_self

theorem dirs_ok {part : Str} (h : part ∈ f.dirs) : part ≠ [] ∧ '.' ∉ part ∧ '/' ∉ part :=
  f.parts_ok part (List.mem_cons_of_mem f.stem h)

theorem top_ok : f.top.name ≠ [] ∧ '.' ∉ f.top.name ∧ '/' ∉ f.top.name := by
  cases f.top with
  | apps => decide
  | config => decide

theorem path_ne_nil : f.path ≠ [] := by
  rw [path]
  simp

theorem path_ok {part : Str} (h : part ∈ f.path) : part ≠ [] ∧ '.' ∉ part ∧ '/' ∉ part := by
  rcases List.mem_append.mp h with h | h
  · exact dirs_ok h
  · rw [List.mem_singleton.mp h]
    exact stem_ok

theorem anchor_ok {part : Str} (h : part ∈ f.anchor) : part ≠ [] ∧ '.' ∉ part := by
  rw [anchor] at h
  split at h
  · exact ⟨(dirs_ok h).1, (dirs_ok h).2.1⟩
  · rcases List.mem_cons.mp h with rfl | h
    · exact ⟨top_ok.1, top_ok.2.1⟩
    · exact ⟨(dirs_ok h).1, (dirs_ok h).2.1⟩

theorem parts_plain {part : Str} (h : part ∈ f.parts) : part ≠ [] ∧ part ≠ ['.'] ∧ '/' ∉ part := by
  have hdot : ∀ {s : Str}, '.' ∉ s → s ≠ ['.'] := by
    rintro s hs rfl
    exact hs List.mem_cons_self
  rcases List.mem_append.mp h with h | h
  · rcases List.mem_cons.mp h with rfl | h
    · exact ⟨top_ok.1, hdot top_ok.2.1, top_ok.2.2⟩
    · exact ⟨(dirs_ok h).1, hdot (dirs_ok h).2.1, (dirs_ok h).2.2⟩
  · rw [List.mem_singleton.mp h, name]
    refine ⟨by simp, ?_, ?_⟩
    · intro heq
      have hlength := congrArg List.length heq
      simp at hlength
    · simp [stem_ok.2.2]

/-- The path is read back from its text. -/
theorem pathOf_rel (f : File) : pathOf f.rel = f.parts := by
  have hsplit : Str.split '/' f.rel = f.parts :=
    Str.split_join (by simp [parts]) fun part h => (parts_plain h).2.2
  rw [pathOf, hsplit, List.filter_eq_self]
  intro part h
  simp [(parts_plain h).1, (parts_plain h).2.1]

/-- The dotted name of a file under `apps/`. -/
theorem dottedNamesFor_rel (h : f.top = .apps) :
    dottedNamesFor f.rel = Str.join ['.'] f.path := by
  have hrel : f.rel = "apps/".toList ++ (Str.join ['/'] f.path ++ ".py".toList) := by
    have hparts : f.parts = [apps] ++ (f.dirs ++ [f.stem ++ ".py".toList]) := by
      rw [parts, h]
      rfl
    rw [rel, hparts, Str.join_append _ (List.cons_ne_nil _ _) (by simp), Str.join_concat_append,
      Str.join_singleton, path]
    rfl
  have hslash : Str.replaceChar (Str.join ['/'] f.path) '/' ['.'] = Str.join ['.'] f.path :=
    Str.replaceChar_join fun part h => (path_ok h).2.2
  have happs : "apps/".toList.isPrefixOf f.rel = true := by
    rw [List.isPrefixOf_iff_prefix, hrel]
    exact List.prefix_append _ _
  have hdrop : f.rel.drop 5 = Str.join ['/'] f.path ++ ".py".toList := by
    rw [hrel]
    rfl
  have hsuffix : ".py".toList.isSuffixOf (Str.join ['/'] f.path ++ ".py".toList) = true := by
    rw [List.isSuffixOf_iff_suffix]
    exact List.suffix_append _ _
  simp only [dottedNamesFor, happs, if_true, hdrop, hsuffix]
  simp [hslash]

end File

/-! ## The names the gate has for a statement -/

section

variable {anchor : List Str} {module : Option Str} {level : ℕ}

theorem join_ne_nil {parts : List Str} (hne : parts ≠ []) (h : ∀ part ∈ parts, part ≠ []) :
    Str.join ['.'] parts ≠ [] := by
  cases parts with
  | nil => exact absurd rfl hne
  | cons first parts =>
    rw [Str.join_cons]
    intro hnil
    exact h first List.mem_cons_self (List.append_eq_nil_iff.mp hnil).1

/-- `full_base` is the module that Python resolves, with dots between its parts, -/
theorem fullBase_of_resolve (hanchor : ∀ part ∈ anchor, part ≠ []) (hmodule : module ≠ some [])
    {base : List Str} (h : resolve anchor module level = some base) :
    fullBase anchor module level = some (Str.join ['.'] base) ∧ Str.join ['.'] base ≠ [] := by
  cases level with
  | zero =>
    cases module with
    | none => cases h
    | some m =>
      cases h
      rw [Str.join_split]
      exact ⟨rfl, fun hnil => hmodule (by rw [hnil])⟩
  | succ level =>
    simp only [resolve] at h
    split at h
    · next hlevel =>
      have htake : anchor.take (anchor.length - level) ≠ [] := by
        intro hnil
        have hlength := congrArg List.length hnil
        simp at hlength
        omega
      have hjoin : Str.join ['.'] (anchor.take (anchor.length - level)) ≠ [] :=
        join_ne_nil htake fun part hpart => hanchor part (List.mem_of_mem_take hpart)
      have hcount : anchor.length - (level + 1) + 1 = anchor.length - level := by omega
      cases h
      cases module with
      | none =>
        simp only [Option.map_none, Option.getD_none, List.append_nil]
        refine ⟨?_, hjoin⟩
        simp [fullBase, hcount, show ¬ level + 1 > anchor.length by omega]
      | some m =>
        have hm : m ≠ [] := fun hnil => hmodule (by rw [hnil])
        simp only [Option.map_some, Option.getD_some]
        rw [Str.join_append _ htake (Str.split_ne_nil '.' m), Str.join_split]
        refine ⟨?_, by simp⟩
        simp [fullBase, hcount, hm, Str.join_concat _ _ htake,
          show ¬ level + 1 > anchor.length by omega]
    · cases h

/-- and there is none if Python resolves none. -/
theorem fullBase_of_none (h : resolve anchor module level = none) :
    fullBase anchor module level = none ∨ fullBase anchor module level = some [] := by
  cases level with
  | zero =>
    cases module with
    | none => exact .inr rfl
    | some m => cases h
  | succ level =>
    simp only [resolve] at h
    split at h
    · cases h
    · exact .inl (by simp [fullBase, show level + 1 > anchor.length by omega])

/-- A module that is resolved has parts, and no dots in them. -/
theorem resolve_ok (hanchor : ∀ part ∈ anchor, '.' ∉ part) {base : List Str}
    (h : resolve anchor module level = some base) : base ≠ [] ∧ ∀ part ∈ base, '.' ∉ part := by
  cases level with
  | zero =>
    cases module with
    | none => cases h
    | some m =>
      cases h
      exact ⟨Str.split_ne_nil '.' m, fun part => Str.not_mem_of_mem_split⟩
  | succ level =>
    simp only [resolve] at h
    split at h
    · next hlevel =>
      cases h
      refine ⟨?_, ?_⟩
      · intro hnil
        have hlength := congrArg List.length hnil
        simp at hlength
        omega
      · intro part hpart
        rcases List.mem_append.mp hpart with hpart | hpart
        · exact hanchor part (List.mem_of_mem_take hpart)
        · cases module with
          | none => cases hpart
          | some m => exact Str.not_mem_of_mem_split hpart
    · cases h

/-- A path is among the names of a statement, as a dotted name, exactly if it is imported. -/
theorem join_mem_resolveImportNames (hanchor : ∀ part ∈ anchor, part ≠ [] ∧ '.' ∉ part)
    {node : Node} (hnode : WellFormed node) {path : List Str} (hne : path ≠ [])
    (hdots : ∀ part ∈ path, '.' ∉ part) (hstar : ['*'] ∉ path) :
    Str.join ['.'] path ∈ resolveImportNames anchor node ↔ path ∈ imported anchor node := by
  cases node with
  | importNames names lines =>
    rw [resolveImportNames, imported, List.mem_map]
    constructor
    · intro h
      exact ⟨_, h, Str.split_join hne hdots⟩
    · rintro ⟨name, hname, rfl⟩
      rw [Str.join_split]
      exact hname
  | importFrom module names level lines =>
    obtain ⟨hmodule, hnames⟩ := hnode
    cases hbase : resolve anchor module level with
    | none =>
      rw [resolveImportNames, imported, hbase]
      rcases fullBase_of_none hbase with h | h
      · simp [h]
      · simp [h]
    | some base =>
      obtain ⟨hfull, hjoin⟩ :=
        fullBase_of_resolve (fun part h => (hanchor part h).1) hmodule hbase
      obtain ⟨hbaseNe, hbaseDots⟩ := resolve_ok (fun part h => (hanchor part h).2) hbase
      simp only [resolveImportNames, imported, hfull, hbase, if_pos hjoin]
      rw [List.mem_cons, List.mem_cons, Str.join_inj hne hbaseNe hdots hbaseDots, List.mem_map,
        List.mem_map]
      refine or_congr_right ?_
      constructor
      · rintro ⟨name, hname, heq⟩
        have hmem := (List.mem_filter.mp hname).1
        refine ⟨name, hmem, ?_⟩
        rw [← Str.join_inj (by simp) hne _ hdots, Str.join_concat _ _ hbaseNe]
        · exact heq
        · intro part hpart
          rcases List.mem_append.mp hpart with hpart | hpart
          · exact hbaseDots part hpart
          · rw [List.mem_singleton.mp hpart]
            exact hnames name hmem
      · rintro ⟨name, hname, rfl⟩
        refine ⟨name, List.mem_filter.mpr ⟨hname, ?_⟩, ?_⟩
        · rw [bne_iff_ne]
          rintro rfl
          exact hstar (by simp)
        · rw [Str.join_concat _ _ hbaseNe]
          rfl
  | other children => simp [resolveImportNames, imported]

end

end Dormant

end DjangoBoilerplate
