import DjangoBoilerplate.DormantImports

/-!
# What the dormant-import gate sees

The exit code of `scripts/check_dormant_imports.py` against the statements that import a dormant
module. The gate has one name for a dormant file, the path below `apps/`. `classify` says in which
ways a statement can import the file under another name, and `gate_exact_iff` on which projects the
exit code is right all the same.
-/

namespace DjangoBoilerplate

namespace Dormant

open Imports

/-! ## Statements -/

/-- The dots of a statement. -/
def dots : Node → ℕ
  | .importFrom _ _ level _ => level
  | .importNames _ _ => 0
  | .other _ => 0

section

variable (p : Project) (omitted : List Str) (f : File) (node : Node)

/-- A dormant module is named in full, beginning with `apps`. -/
def SpelledApps : Prop :=
  isRelative node = false ∧
    ∃ d, IsDormant p omitted d ∧ d.package ++ [d.stem] ∈ imported f.package node

/-- The dots of a relative import go up to `apps` itself, and from there to a dormant module. -/
def UpToApps : Prop :=
  dots node = f.package.length ∧
    ∃ d, IsDormant p omitted d ∧ d.package ++ [d.stem] ∈ imported f.package node

/-- A package is named whose `__init__.py` is dormant. -/
def NamesPackage : Prop :=
  ∃ d, IsDormant p omitted d ∧ d.stem = "__init__".toList ∧ d.package ∈ locations f node

/-- The gate does not recognise that the statement imports a dormant module. -/
def Overlooked : Prop :=
  ¬ Recognised p omitted f node ∧
    (SpelledApps p omitted f node ∨ UpToApps p omitted f node ∨ NamesPackage p omitted f node)

/-- A relative import in `config/`, which stays there. -/
def InConfig : Prop := f.top = .config ∧ isRelative node = true

end

/-- An absolute import is the same in every package. -/
theorem imported_of_absolute {node : Node} (h : isRelative node = false)
    (package package' : List Str) : imported package node = imported package' node := by
  cases node with
  | importFrom module names level lines =>
    obtain rfl : level = 0 := by simpa [isRelative] using h
    cases module with
    | none => rfl
    | some m => rfl
  | importNames names lines => rfl
  | other children => rfl

section

variable {top : Str} {package path : List Str} {node : Node}

/-- A relative import has its dots, and a module that they lead to if it imports anything. -/
theorem exists_resolve (hrelative : isRelative node = true) (h : path ∈ imported package node) :
    ∃ module names level lines base rest,
      node = .importFrom module names (level + 1) lines ∧
      resolve package module (level + 1) = some base ∧ path = base ++ rest := by
  cases node with
  | importFrom module names level lines =>
    cases level with
    | zero => cases hrelative
    | succ level =>
      rw [imported] at h
      split at h
      · next base hbase =>
        rcases List.mem_cons.mp h with rfl | h
        · exact ⟨module, names, level, lines, path, [], rfl, hbase, (List.append_nil path).symm⟩
        · obtain ⟨name, -, rfl⟩ := List.mem_map.mp h
          exact ⟨module, names, level, lines, base, [name], rfl, hbase, rfl⟩
      · cases h
  | importNames names lines => cases hrelative
  | other children => cases hrelative

/-- A relative import does not go out of the package. -/
theorem dots_le_of_mem_imported (hrelative : isRelative node = true)
    (h : path ∈ imported package node) : dots node ≤ package.length := by
  obtain ⟨module, names, level, lines, base, rest, rfl, hbase, -⟩ := exists_resolve hrelative h
  simp only [resolve] at hbase
  split at hbase
  · next hlevel => exact hlevel
  · cases hbase

/-- It stays below the first part of the package. -/
theorem head_of_mem_imported (hrelative : isRelative node = true)
    (h : path ∈ imported (top :: package) node) : path.head? = some top := by
  obtain ⟨module, names, level, lines, base, rest, -, hbase, rfl⟩ := exists_resolve hrelative h
  simp only [resolve] at hbase
  split at hbase
  · next hlevel =>
    cases hbase
    rw [List.length_cons] at hlevel
    rw [List.length_cons, show package.length + 1 - level = package.length - level + 1 by omega]
    rfl
  · cases hbase

/-- In a package below another one, up to which the dots do not go, everything is below it. -/
theorem imported_cons (hrelative : isRelative node = true) (hdots : dots node ≤ package.length) :
    imported (top :: package) node = (imported package node).map (top :: ·) := by
  cases node with
  | importFrom module names level lines =>
    cases level with
    | zero => cases hrelative
    | succ level =>
      have hlt : level < package.length := hdots
      have hlt' : level < (top :: package).length := Nat.lt_succ_of_lt hlt
      have htake : (top :: package).take ((top :: package).length - level) =
          top :: package.take (package.length - level) := by
        rw [List.length_cons, show package.length + 1 - level = package.length - level + 1 by omega]
        rfl
      simp only [imported, resolve, if_pos hlt, if_pos hlt', htake]
      simp
  | importNames names lines => cases hrelative
  | other children => cases hrelative

end

/-! ## Which statements are recognised -/

section

variable {p : Project} {omitted : List Str} {f d : File} {node : Node}

theorem IsDormant.location (h : IsDormant p omitted d) :
    d.package ++ [d.stem] = apps :: d.path := by
  rw [File.package, File.path, h.top]
  rfl

theorem IsDormant.head_modules (h : IsDormant p omitted d) {location : List Str}
    (hlocation : location ∈ d.modules) : location.head? = some apps := by
  rw [File.modules, List.mem_cons] at hlocation
  rcases hlocation with rfl | hlocation
  · rw [h.location]
    rfl
  · split at hlocation
    · rw [List.mem_singleton.mp hlocation, File.package, h.top]
      rfl
    · cases hlocation

/-- Nothing dormant lies below `config/`. -/
theorem Resolves.not_inConfig (h : Resolves p omitted f node) : ¬ InConfig f node := by
  rintro ⟨htop, hrelative⟩
  obtain ⟨d, hd, location, hlocation, hmodule⟩ := h
  rw [locations, if_pos hrelative] at hlocation
  have hhead := head_of_mem_imported hrelative hlocation
  rw [hd.head_modules hmodule, htop] at hhead
  exact absurd hhead (by decide)

/-- A module that is named as its file is recognised, or named in one of two other ways. -/
theorem recognised_or_named (hd : IsDormant p omitted d) (hconfig : ¬ InConfig f node)
    (h : d.package ++ [d.stem] ∈ locations f node) :
    Recognised p omitted f node ∨ SpelledApps p omitted f node ∨ UpToApps p omitted f node := by
  by_cases hrelative : isRelative node = true
  · rw [locations, if_pos hrelative] at h
    have hle := dots_le_of_mem_imported hrelative h
    by_cases hup : dots node = f.package.length
    · exact .inr (.inr ⟨hup, d, hd, h⟩)
    · have htop : f.top = .apps := by
        cases htop : f.top with
        | apps => rfl
        | config => exact absurd ⟨htop, hrelative⟩ hconfig
      have hdots : dots node ≤ f.dirs.length := by
        have hlength : f.package.length = f.dirs.length + 1 := rfl
        omega
      rw [File.package, imported_cons hrelative hdots, hd.location, htop] at h
      obtain ⟨path, hpath, heq⟩ := List.mem_map.mp h
      obtain rfl : path = d.path := List.cons_inj_right _ |>.mp heq
      refine .inl ⟨d, hd, ?_⟩
      rw [File.anchor, htop]
      exact hpath
  · have habsolute : isRelative node = false := Bool.eq_false_of_not_eq_true hrelative
    rw [locations, if_neg hrelative] at h
    obtain ⟨path, hpath, hmem⟩ := List.mem_flatMap.mp h
    rcases List.mem_pair.mp hmem with rfl | heq
    · exact .inr (.inl ⟨habsolute, d, hd, hpath⟩)
    · rw [hd.location] at heq
      obtain rfl : d.path = path := List.cons_inj_right _ |>.mp heq
      refine .inl ⟨d, hd, ?_⟩
      rw [imported_of_absolute habsolute f.anchor f.package]
      exact hpath

/-- What is recognised does import a dormant module, but in `config/`. -/
theorem Recognised.resolves (h : Recognised p omitted f node) (hconfig : ¬ InConfig f node) :
    Resolves p omitted f node := by
  obtain ⟨d, hd, hpath⟩ := h
  refine ⟨d, hd, d.package ++ [d.stem], ?_, List.mem_cons_self⟩
  by_cases hrelative : isRelative node = true
  · have htop : f.top = .apps := by
      cases htop : f.top with
      | apps => rfl
      | config => exact absurd ⟨htop, hrelative⟩ hconfig
    rw [File.anchor, htop] at hpath
    have hdots := dots_le_of_mem_imported hrelative hpath
    rw [locations, if_pos hrelative, File.package, imported_cons hrelative hdots, hd.location, htop]
    exact List.mem_map.mpr ⟨d.path, hpath, rfl⟩
  · have habsolute : isRelative node = false := Bool.eq_false_of_not_eq_true hrelative
    rw [locations, if_neg hrelative, hd.location]
    rw [imported_of_absolute habsolute f.anchor f.package] at hpath
    exact List.mem_flatMap.mpr ⟨d.path, hpath, by simp⟩

theorem Overlooked.resolves (h : Overlooked p omitted f node) : Resolves p omitted f node := by
  obtain ⟨-, ⟨habsolute, d, hd, hmem⟩ | ⟨hup, d, hd, hmem⟩ | ⟨d, hd, hinit, hmem⟩⟩ := h
  · refine ⟨d, hd, _, ?_, List.mem_cons_self⟩
    rw [locations, if_neg (by rw [habsolute]; exact Bool.false_ne_true)]
    exact List.mem_flatMap.mpr ⟨_, hmem, List.mem_cons_self⟩
  · have hrelative : isRelative node = true := by
      cases node with
      | importFrom module names level lines =>
        have hlevel : level = f.dirs.length + 1 := hup
        rw [hlevel]
        rfl
      | importNames names lines => cases hup
      | other children => cases hup
    refine ⟨d, hd, _, ?_, List.mem_cons_self⟩
    rw [locations, if_pos hrelative]
    exact hmem
  · refine ⟨d, hd, d.package, hmem, ?_⟩
    rw [File.modules, if_pos hinit]
    exact List.mem_cons_of_mem _ List.mem_cons_self

/-- A statement imports a dormant module if it is recognised, outside of `config/`, or if it is
overlooked. -/
theorem classify : Resolves p omitted f node ↔
    Recognised p omitted f node ∧ ¬ InConfig f node ∨ Overlooked p omitted f node := by
  constructor
  · intro h
    have hconfig := h.not_inConfig
    by_cases hrecognised : Recognised p omitted f node
    · exact .inl ⟨hrecognised, hconfig⟩
    · refine .inr ⟨hrecognised, ?_⟩
      obtain ⟨d, hd, location, hlocation, hmodule⟩ := h
      rw [File.modules, List.mem_cons] at hmodule
      rcases hmodule with rfl | hmodule
      · rcases recognised_or_named hd hconfig hlocation with h | h | h
        · exact absurd h hrecognised
        · exact .inl h
        · exact .inr (.inl h)
      · split at hmodule
        · next hinit =>
          rw [List.mem_singleton.mp hmodule] at hlocation
          exact .inr (.inr ⟨d, hd, hinit, hlocation⟩)
        · cases hmodule
  · rintro (⟨hrecognised, hconfig⟩ | hoverlooked)
    · exact hrecognised.resolves hconfig
    · exact hoverlooked.resolves

end

/-! ## What is reported -/

/-- An entry of the omit list has no star in its path. -/
theorem IsDormant.star_not_mem {p : Project} {raw : Str} {d : File}
    (hd : IsDormant p (loadOmitPaths raw) d) : ['*'] ∉ d.path := by
  have hrel : '*' ∉ d.rel := by
    have hkept := (List.mem_filter.mp hd.rel).2
    simp only [Bool.and_eq_true, Bool.not_eq_true'] at hkept
    intro hmem
    rw [List.contains_iff_mem.mpr hmem] at hkept
    exact Bool.false_ne_true hkept.2.symm
  intro hstar
  rcases List.mem_append.mp hstar with h | h
  · have hpart : ['*'] ∈ d.parts := List.mem_append_left _ (List.mem_cons_of_mem _ h)
    exact hrel (Str.mem_join hpart List.mem_cons_self)
  · refine hrel (Str.mem_join (List.mem_append_right _ (List.mem_singleton_self d.name)) ?_)
    rw [File.name, ← List.mem_singleton.mp h]
    exact List.mem_append_left _ List.mem_cons_self

section

variable {py : Python} {p : Project} {raw : Str} (hagrees : Agrees p py raw)

include hagrees

/-- Every entry of the omit list is a dormant file. -/
theorem Agrees.exists_dormant {entry : Str} (h : entry ∈ loadOmitPaths raw) :
    ∃ d, IsDormant p (loadOmitPaths raw) d ∧ d.rel = entry := by
  obtain ⟨d, hmem, htop, -, -, rfl⟩ := (hagrees.entries entry).mp h
  exact ⟨d, ⟨hmem, htop, h⟩, rfl⟩

/-- The names of a statement are compared as texts; that comes to its being recognised. -/
theorem exists_dotted_iff {f : File} {node : Node} (hnode : WellFormed node) :
    (∃ dotted ∈ resolveImportNames f.anchor node,
        dotted ∈ (loadOmitPaths raw).map dottedNamesFor) ↔
      Recognised p (loadOmitPaths raw) f node := by
  have hanchor : ∀ part ∈ f.anchor, part ≠ [] ∧ '.' ∉ part := fun part h => File.anchor_ok h
  constructor
  · rintro ⟨dotted, hdotted, hmem⟩
    obtain ⟨entry, hentry, rfl⟩ := List.mem_map.mp hmem
    obtain ⟨d, hd, rfl⟩ := hagrees.exists_dormant hentry
    rw [File.dottedNamesFor_rel hd.top] at hdotted
    refine ⟨d, hd, ?_⟩
    exact (join_mem_resolveImportNames hanchor hnode File.path_ne_nil
      (fun part h => (File.path_ok h).2.1) hd.star_not_mem).mp hdotted
  · rintro ⟨d, hd, hpath⟩
    refine ⟨dottedNamesFor d.rel, ?_, List.mem_map_of_mem hd.rel⟩
    rw [File.dottedNamesFor_rel hd.top]
    exact (join_mem_resolveImportNames hanchor hnode File.path_ne_nil
      (fun part h => (File.path_ok h).2.1) hd.star_not_mem).mpr hpath

theorem nodeFindings_ne_nil {f : File} {node : Node} (hnode : WellFormed node) :
    nodeFindings ((loadOmitPaths raw).map dottedNamesFor) f node ≠ [] ↔
      Recognised p (loadOmitPaths raw) f node ∧ waivedOn f.source.splitlines node = false := by
  rw [← exists_dotted_iff hagrees hnode, nodeFindings]
  constructor
  · intro h
    split at h
    · next dotted hfind =>
      have hmem := List.mem_of_find?_eq_some hfind
      have hkept := List.find?_some hfind
      rw [Bool.and_eq_true, List.contains_iff_mem, Bool.not_eq_true'] at hkept
      exact ⟨⟨dotted, hmem, hkept.1⟩, hkept.2⟩
    · exact absurd rfl h
  · rintro ⟨⟨dotted, hdotted, hmem⟩, hwaived⟩
    split
    · exact List.cons_ne_nil _ _
    · next hnone =>
      refine absurd ?_ (List.find?_eq_none.mp hnone dotted hdotted)
      rw [Bool.and_eq_true, List.contains_iff_mem, hwaived]
      exact ⟨hmem, rfl⟩

/-- The files that are read are the live modules. -/
theorem mem_readFiles_iff {f : File} :
    f ∈ readFiles p (loadOmitPaths raw) ↔ IsLive p (loadOmitPaths raw) f := by
  have htargets : f ∈ walkTargets p ↔ f ∈ p.files := by
    cases htop : f.top with
    | apps => simp [walkTargets, htop]
    | config => simp [walkTargets, htop]
  have hdormant : f.parts ∈ (loadOmitPaths raw).map pathOf ↔ f.rel ∈ loadOmitPaths raw := by
    constructor
    · intro h
      obtain ⟨entry, hentry, hpath⟩ := List.mem_map.mp h
      obtain ⟨d, hd, rfl⟩ := hagrees.exists_dormant hentry
      rw [File.pathOf_rel] at hpath
      have hrel : d.rel = f.rel := by rw [File.rel, File.rel, hpath]
      rw [← hrel]
      exact hentry
    · intro h
      exact List.mem_map.mpr ⟨f.rel, h, f.pathOf_rel⟩
  rw [readFiles, List.mem_filter, htargets, Bool.and_eq_true, Bool.not_eq_true',
    Bool.not_eq_true', ← Bool.not_eq_true, List.contains_iff_mem, hdormant]
  constructor
  · rintro ⟨hmem, hrel, htest⟩
    exact ⟨hmem, hrel, htest⟩
  · rintro ⟨hmem, hrel, htest⟩
    exact ⟨hmem, hrel, htest⟩

end

/-! ## The exit code -/

section

variable (py : Python) (p : Project) (omitted : List Str)

/-- A live module has a statement of a kind. -/
def HasImport (kind : File → Node → Prop) : Prop :=
  ∃ f, IsLive p omitted f ∧ ∃ m, py.parse f.source = some m ∧
    ∃ node : Node, node.Within m.tree ∧ kind f node

/-- A live module does not parse. -/
def HasSyntaxError : Prop := ∃ f, IsLive p omitted f ∧ py.parse f.source = none

/-- There is a waiver on the lines of the statement, as the parser counts them. -/
def Waived (f : File) (node : Node) : Prop := waivedOn (Str.split '\n' f.source) node = true

/-- There is one on the lines that the gate takes for them. -/
def Excused (f : File) (node : Node) : Prop := waivedOn f.source.splitlines node = true

/-- The statement is reported. -/
def Reported (f : File) (node : Node) : Prop := Recognised p omitted f node ∧ ¬ Excused f node

/-- It imports a dormant module without a waiver and is not reported: it is overlooked, or other
line breaks than newlines have shifted a waiver to its lines. -/
def Unseen (f : File) (node : Node) : Prop :=
  ¬ Waived f node ∧
    (Overlooked p omitted f node ∨
      Recognised p omitted f node ∧ ¬ InConfig f node ∧ Excused f node ∧
        ¬ Str.NewlinesOnly f.source)

/-- It is reported and imports no dormant module, as there is one of that name in `config/`. -/
def FalseAlarm (f : File) (node : Node) : Prop := Reported p omitted f node ∧ InConfig f node

/-- The project lies in a directory called `tests`, so that all its modules count as tests when
docstrings are looked at. -/
def BelowTests : Prop := "tests".toList ∈ p.cwd ∧ omitted ≠ []

/-- The exit code is right: `1` if an import of a dormant module has no waiver, and `0` if no
module is imported that is dormant and all files parse. -/
def ExitCodeRight : Prop :=
  (HasImport py p omitted (fun f node => Resolves p omitted f node ∧ ¬ Waived f node) →
    main py p = 1) ∧
  (¬ HasSyntaxError py p omitted ∧ ¬ HasImport py p omitted (Resolves p omitted) → main py p = 0)

end

section

variable {py : Python} {p : Project} {omitted : List Str}

theorem HasImport.imp {kind kind' : File → Node → Prop} (h : HasImport py p omitted kind)
    (himp : ∀ f node, kind f node → kind' f node) : HasImport py p omitted kind' := by
  obtain ⟨f, hlive, m, hparse, node, hwithin, hkind⟩ := h
  exact ⟨f, hlive, m, hparse, node, hwithin, himp f node hkind⟩

/-- Without other line breaks, a waiver is seen exactly if it is there. -/
theorem excused_iff {f : File} (h : Str.NewlinesOnly f.source) {node : Node} :
    Excused f node ↔ Waived f node := by
  rw [Excused, Waived]
  cases node with
  | importFrom module names level lines =>
    rw [waivedOn, waivedOn, lineHasWaiver_splitlines h]
  | importNames names lines =>
    rw [waivedOn, waivedOn, lineHasWaiver_splitlines h]
  | other children => rfl

/-- A statement that imports a dormant module without a waiver is reported or not seen. -/
theorem reported_or_unseen {f : File} {node : Node} (h : Resolves p omitted f node)
    (hwaived : ¬ Waived f node) : Reported p omitted f node ∨ Unseen p omitted f node := by
  rcases classify.mp h with ⟨hrecognised, hconfig⟩ | hoverlooked
  · by_cases hexcused : Excused f node
    · refine .inr ⟨hwaived, .inr ⟨hrecognised, hconfig, hexcused, ?_⟩⟩
      intro hnewlines
      exact hwaived ((excused_iff hnewlines).mp hexcused)
    · exact .inl ⟨hrecognised, hexcused⟩
  · exact .inr ⟨hwaived, .inl hoverlooked⟩

theorem Unseen.resolves {f : File} {node : Node} (h : Unseen p omitted f node) :
    Resolves p omitted f node ∧ ¬ Waived f node := by
  obtain ⟨hwaived, hoverlooked | ⟨hrecognised, hconfig, -, -⟩⟩ := h
  · exact ⟨hoverlooked.resolves, hwaived⟩
  · exact ⟨hrecognised.resolves hconfig, hwaived⟩

end

section

variable {py : Python} {p : Project} {raw : Str} (hagrees : Agrees p py raw)

include hagrees

/-- Something is printed for a syntax error or a statement that is reported. -/
theorem findings_ne_nil_iff :
    (readFiles p (loadOmitPaths raw)).flatMap
        (fileFindings py ((loadOmitPaths raw).map dottedNamesFor)) ≠ [] ↔
      HasSyntaxError py p (loadOmitPaths raw) ∨
        HasImport py p (loadOmitPaths raw) (Reported p (loadOmitPaths raw)) := by
  rw [Ne, List.flatMap_eq_nil_iff]
  push Not
  constructor
  · rintro ⟨f, hread, hfindings⟩
    have hlive := (mem_readFiles_iff hagrees).mp hread
    rw [fileFindings] at hfindings
    split at hfindings
    · next hparse => exact .inl ⟨f, hlive, hparse⟩
    · next m hparse =>
      rw [Ne, List.flatMap_eq_nil_iff] at hfindings
      push Not at hfindings
      obtain ⟨node, hwalk, hnode⟩ := hfindings
      obtain ⟨tree, htree, hwithin⟩ := mem_walk_iff.mp hwalk
      rw [List.mem_singleton.mp htree] at hwithin
      obtain ⟨hrecognised, hexcused⟩ :=
        (nodeFindings_ne_nil hagrees (py.parse_ok hparse node hwithin)).mp hnode
      refine .inr ⟨f, hlive, m, hparse, node, hwithin, hrecognised, ?_⟩
      rw [Excused, hexcused]
      exact Bool.false_ne_true
  · rintro (⟨f, hlive, hparse⟩ | ⟨f, hlive, m, hparse, node, hwithin, hrecognised, hexcused⟩)
    · refine ⟨f, (mem_readFiles_iff hagrees).mpr hlive, ?_⟩
      rw [fileFindings, hparse]
      exact List.cons_ne_nil _ _
    · refine ⟨f, (mem_readFiles_iff hagrees).mpr hlive, ?_⟩
      rw [fileFindings, hparse]
      refine mt List.flatMap_eq_nil_iff.mp ?_
      push Not
      refine ⟨node, mem_walk_iff.mpr ⟨m.tree, List.mem_singleton_self _, hwithin⟩, ?_⟩
      exact (nodeFindings_ne_nil hagrees (py.parse_ok hparse node hwithin)).mpr
        ⟨hrecognised, Bool.eq_false_of_not_eq_true hexcused⟩

/-- The docstrings that are looked at are those of the dormant files, but below a directory called
`tests` there are none. -/
theorem mem_scanDormantMarkers_iff {entry : Str} :
    entry ∈ scanDormantMarkers py p ↔ "tests".toList ∉ p.cwd ∧ entry ∈ loadOmitPaths raw := by
  have htest : ∀ f : File, isTestPath (p.cwd ++ f.parts) f.name = false ↔
      "tests".toList ∉ p.cwd ∧ isTestPath f.parts f.name = false := by
    intro f
    simp [isTestPath, and_assoc]
  rw [hagrees.entries, scanDormantMarkers, List.mem_map]
  constructor
  · rintro ⟨f, hf, rfl⟩
    obtain ⟨hmem, hkept⟩ := List.mem_filter.mp hf
    simp only [Bool.and_eq_true, decide_eq_true_eq, Bool.not_eq_true'] at hkept
    obtain ⟨⟨htop, hnot⟩, hmarked⟩ := hkept
    obtain ⟨hcwd, hnot⟩ := (htest f).mp hnot
    exact ⟨hcwd, f, hmem, htop, hnot, hmarked, rfl⟩
  · rintro ⟨hcwd, f, hmem, htop, hnot, hmarked, rfl⟩
    refine ⟨f, List.mem_filter.mpr ⟨hmem, ?_⟩, rfl⟩
    simp only [Bool.and_eq_true, decide_eq_true_eq, Bool.not_eq_true']
    exact ⟨⟨htop, (htest f).mpr ⟨hcwd, hnot⟩⟩, hmarked⟩

/-- The two halves of the policy are found to disagree only there. -/
theorem checkDrift_ne_nil_iff :
    checkDrift p (loadOmitPaths raw) (scanDormantMarkers py p) ≠ [] ↔
      BelowTests p (loadOmitPaths raw) := by
  rw [checkDrift, Ne, List.append_eq_nil_iff, List.map_eq_nil_iff, List.map_eq_nil_iff,
    List.filter_eq_nil_iff, List.filter_eq_nil_iff]
  simp only [Bool.not_eq_true', Bool.not_eq_false, List.contains_iff_mem,
    mem_scanDormantMarkers_iff hagrees]
  constructor
  · intro h
    by_contra hnot
    refine h ⟨fun entry hentry => ⟨?_, hentry⟩, fun entry hentry => hentry.2⟩
    intro hcwd
    exact hnot ⟨hcwd, List.ne_nil_of_mem hentry⟩
  · rintro ⟨hcwd, hne⟩ ⟨hall, -⟩
    obtain ⟨entry, hentry⟩ := List.exists_mem_of_ne_nil _ hne
    exact (hall entry hentry).1 hcwd

theorem main_of_belowTests (h : BelowTests p (loadOmitPaths raw)) : main py p = 2 := by
  rw [main, hagrees.coveragerc]
  exact if_pos ((checkDrift_ne_nil_iff hagrees).mpr h)

/-- Elsewhere the exit code tells whether something was printed. -/
theorem main_of_not_belowTests (h : ¬ BelowTests p (loadOmitPaths raw)) :
    (main py p = 1 ↔ HasSyntaxError py p (loadOmitPaths raw) ∨
      HasImport py p (loadOmitPaths raw) (Reported p (loadOmitPaths raw))) ∧
    (main py p = 0 ↔ ¬ (HasSyntaxError py p (loadOmitPaths raw) ∨
      HasImport py p (loadOmitPaths raw) (Reported p (loadOmitPaths raw)))) := by
  rw [← findings_ne_nil_iff hagrees]
  have hmain : main py p = if (readFiles p (loadOmitPaths raw)).flatMap
      (fileFindings py ((loadOmitPaths raw).map dottedNamesFor)) ≠ [] then 1 else 0 := by
    rw [main, hagrees.coveragerc]
    exact if_neg (mt (checkDrift_ne_nil_iff hagrees).mp h)
  rw [hmain]
  split
  · next hfound => simp [hfound]
  · next hfound => simp [hfound]

/-- Below a directory called `tests` the exit code is right only where none is asked for. -/
theorem exitCodeRight_of_belowTests (h : BelowTests p (loadOmitPaths raw)) :
    ExitCodeRight py p (loadOmitPaths raw) ↔
      ¬ HasImport py p (loadOmitPaths raw)
        (fun f node => Resolves p (loadOmitPaths raw) f node ∧ ¬ Waived f node) ∧
      (HasSyntaxError py p (loadOmitPaths raw) ∨
        HasImport py p (loadOmitPaths raw) (Resolves p (loadOmitPaths raw))) := by
  rw [ExitCodeRight, main_of_belowTests hagrees h]
  constructor
  · rintro ⟨hone, hzero⟩
    refine ⟨fun himport => absurd (hone himport) (by decide), ?_⟩
    by_contra hnone
    exact absurd (hzero (not_or.mp hnone)) (by decide)
  · rintro ⟨hone, hzero⟩
    exact ⟨fun himport => absurd himport hone, fun hnone => absurd hzero (not_or.mpr hnone)⟩

/-- Elsewhere it is right if what is not seen, and what is a false alarm, does not count. -/
theorem exitCodeRight_of_not_belowTests (h : ¬ BelowTests p (loadOmitPaths raw)) :
    ExitCodeRight py p (loadOmitPaths raw) ↔
      (HasImport py p (loadOmitPaths raw) (Unseen p (loadOmitPaths raw)) →
        HasSyntaxError py p (loadOmitPaths raw) ∨
          HasImport py p (loadOmitPaths raw) (Reported p (loadOmitPaths raw))) ∧
      (HasImport py p (loadOmitPaths raw) (FalseAlarm p (loadOmitPaths raw)) →
        HasSyntaxError py p (loadOmitPaths raw) ∨
          HasImport py p (loadOmitPaths raw) (Resolves p (loadOmitPaths raw))) := by
  obtain ⟨hmainOne, hmainZero⟩ := main_of_not_belowTests hagrees h
  rw [ExitCodeRight, hmainOne, hmainZero]
  constructor
  · rintro ⟨hone, hzero⟩
    refine ⟨fun hunseen => hone (hunseen.imp fun f node => Unseen.resolves), fun halarm => ?_⟩
    by_contra hnone
    refine hzero (not_or.mp hnone) (.inr ?_)
    exact halarm.imp fun f node h => h.1
  · rintro ⟨hunseen, halarm⟩
    refine ⟨?_, ?_⟩
    · rintro ⟨f, hlive, m, hparse, node, hwithin, hresolves, hwaived⟩
      rcases reported_or_unseen hresolves hwaived with hreported | hnot
      · exact .inr ⟨f, hlive, m, hparse, node, hwithin, hreported⟩
      · exact hunseen ⟨f, hlive, m, hparse, node, hwithin, hnot⟩
    · rintro ⟨hparses, hnone⟩ (herror | ⟨f, hlive, m, hparse, node, hwithin, hreported⟩)
      · exact hparses herror
      · -- what is reported imports a dormant module, or is a false alarm
        by_cases hconfig : InConfig f node
        · rcases halarm ⟨f, hlive, m, hparse, node, hwithin, hreported, hconfig⟩ with h | h
          · exact hparses h
          · exact hnone h
        · exact hnone ⟨f, hlive, m, hparse, node, hwithin, hreported.1.resolves hconfig⟩

end

/-- The exit code is right on a project exactly if, outside of a directory called `tests`, a
statement that is not seen or a false alarm comes with another reason for the exit code; in such a
directory it is always `2`, and right only where neither of the others is asked for. -/
theorem gate_exact_iff {py : Python} {p : Project} {raw : Str} (hagrees : Agrees p py raw) :
    ExitCodeRight py p (loadOmitPaths raw) ↔
      ¬ BelowTests p (loadOmitPaths raw) ∧
        (HasImport py p (loadOmitPaths raw) (Unseen p (loadOmitPaths raw)) →
          HasSyntaxError py p (loadOmitPaths raw) ∨
            HasImport py p (loadOmitPaths raw) (Reported p (loadOmitPaths raw))) ∧
        (HasImport py p (loadOmitPaths raw) (FalseAlarm p (loadOmitPaths raw)) →
          HasSyntaxError py p (loadOmitPaths raw) ∨
            HasImport py p (loadOmitPaths raw) (Resolves p (loadOmitPaths raw))) ∨
      BelowTests p (loadOmitPaths raw) ∧
        ¬ HasImport py p (loadOmitPaths raw)
          (fun f node => Resolves p (loadOmitPaths raw) f node ∧ ¬ Waived f node) ∧
        (HasSyntaxError py p (loadOmitPaths raw) ∨
          HasImport py p (loadOmitPaths raw) (Resolves p (loadOmitPaths raw))) := by
  by_cases h : BelowTests p (loadOmitPaths raw)
  · rw [exitCodeRight_of_belowTests hagrees h]
    constructor
    · exact fun hright => .inr ⟨h, hright⟩
    · rintro (⟨hnot, -⟩ | ⟨-, hright⟩)
      · exact absurd h hnot
      · exact hright
  · rw [exitCodeRight_of_not_belowTests hagrees h]
    constructor
    · exact fun hright => .inl ⟨h, hright⟩
    · rintro (⟨-, hright⟩ | ⟨hbelow, -⟩)
      · exact hright
      · exact absurd hbelow h

/-! ## A project -/

/-- `.coveragerc` with one dormant file. -/
def exampleOmit : Str := "\n*/tests/*\n# dormant\napps/core/utils/s3.py".toList

/-- A dormant module. -/
def s3File : File where
  top := .apps
  dirs := ["core".toList, "utils".toList]
  stem := "s3".toList
  source := "'Dormant: no live callers.'\n".toList
  parts_ok := by decide
  source_ok := by decide

/-- A live module with one statement. -/
def servicesFile (spelling : Str) (h : '\r' ∉ spelling) : File where
  top := .apps
  dirs := ["core".toList]
  stem := "services".toList
  source := "from ".toList ++ spelling ++ " import upload\n".toList
  parts_ok := by decide
  source_ok := by
    rw [List.mem_append, List.mem_append]
    rintro ((hmem | hmem) | hmem)
    · exact absurd hmem (by decide)
    · exact h hmem
    · exact absurd hmem (by decide)

/-- The statement. -/
def upload (spelling : Str) : Node := .importFrom (some spelling) ["upload".toList] 0 ⟨1, 1⟩

theorem within_upload {spelling : Str} {node : Node}
    (h : node.Within (.other [upload spelling])) :
    node = .other [upload spelling] ∨ node = upload spelling := by
  cases h with
  | root => exact .inl rfl
  | child hchild hwithin =>
    rw [List.mem_singleton.mp hchild] at hwithin
    cases hwithin with
    | root => exact .inr rfl
    | child hchild => cases hchild

/-- A parser of the two files. -/
def examplePython (spelling : Str) (hne : spelling ≠ []) : Python where
  parse source :=
    if source = s3File.source then
      some ⟨some "Dormant: no live callers.".toList, .other []⟩
    else some ⟨none, .other [upload spelling]⟩
  isWord c := c.isAlphanum || c == '_'
  parse_ok := by
    intro source m hparse node hwithin
    split at hparse
    · cases hparse
      cases hwithin with
      | root => trivial
      | child hchild => cases hchild
    · cases hparse
      rcases within_upload hwithin with rfl | rfl
      · trivial
      · exact ⟨fun h => hne (Option.some.inj h), by decide⟩

/-- A project with the two files. -/
def exampleProject (services : File) : Project where
  cwd := ["/".toList, "srv".toList, "project".toList]
  coveragerc := some exampleOmit
  files := [services, s3File]
  isFile _ := true

theorem loadOmitPaths_exampleOmit : loadOmitPaths exampleOmit = [s3File.rel] := by
  decide

section

variable (spelling : Str) (hne : spelling ≠ []) (hr : '\r' ∉ spelling)

theorem parse_services : (examplePython spelling hne).parse (servicesFile spelling hr).source =
    some ⟨none, .other [upload spelling]⟩ := by
  have hsource : (servicesFile spelling hr).source ≠ s3File.source := by
    intro h
    injection h with hc
    exact absurd hc (by decide)
  simp only [examplePython, if_neg hsource]

theorem agrees_example : Agrees (exampleProject (servicesFile spelling hr))
    (examplePython spelling hne) exampleOmit where
  coveragerc := rfl
  entries := by
    intro entry
    rw [loadOmitPaths_exampleOmit, List.mem_singleton]
    constructor
    · rintro rfl
      exact ⟨s3File, by simp [exampleProject], rfl, by decide, by rfl, rfl⟩
    · rintro ⟨f, hf, -, -, hmarked, rfl⟩
      rcases List.mem_pair.mp hf with rfl | rfl
      · rw [marked, moduleDocstring, parse_services] at hmarked
        cases hmarked
      · rfl

theorem isDormant_s3File : IsDormant (exampleProject (servicesFile spelling hr))
    (loadOmitPaths exampleOmit) s3File where
  mem := by simp [exampleProject]
  top := rfl
  rel := by
    rw [loadOmitPaths_exampleOmit]
    exact List.mem_singleton_self _

theorem services_rel_ne : (servicesFile spelling hr).rel ≠ s3File.rel :=
  show "apps/core/services.py".toList ≠ "apps/core/utils/s3.py".toList by decide

theorem eq_s3File {d : File} (hd : IsDormant (exampleProject (servicesFile spelling hr))
    (loadOmitPaths exampleOmit) d) : d = s3File := by
  rcases List.mem_pair.mp hd.mem with rfl | rfl
  · have hrel := hd.rel
    rw [loadOmitPaths_exampleOmit, List.mem_singleton] at hrel
    exact absurd hrel (services_rel_ne spelling hr)
  · rfl

theorem isLive_services : IsLive (exampleProject (servicesFile spelling hr))
    (loadOmitPaths exampleOmit) (servicesFile spelling hr) where
  mem := List.mem_cons_self
  rel := by
    rw [loadOmitPaths_exampleOmit, List.mem_singleton]
    exact services_rel_ne spelling hr
  test := rfl

theorem eq_services {f : File} (hf : IsLive (exampleProject (servicesFile spelling hr))
    (loadOmitPaths exampleOmit) f) : f = servicesFile spelling hr := by
  rcases List.mem_pair.mp hf.mem with rfl | rfl
  · rfl
  · refine absurd ?_ hf.rel
    rw [loadOmitPaths_exampleOmit]
    exact List.mem_singleton_self _

theorem not_belowTests_example : ¬ BelowTests (exampleProject (servicesFile spelling hr))
    (loadOmitPaths exampleOmit) := by
  rintro ⟨hcwd, -⟩
  exact absurd hcwd
    (show "tests".toList ∉ ["/".toList, "srv".toList, "project".toList] by decide)

end

/-- `from core.utils.s3 import upload`. -/
def coreServices : File := servicesFile "core.utils.s3".toList (by decide)

/-- The parser of it. -/
def corePython : Python := examplePython "core.utils.s3".toList (List.cons_ne_nil _ _)

/-- It is reported. -/
theorem gate_exact_core :
    Agrees (exampleProject coreServices) corePython exampleOmit ∧
      ExitCodeRight corePython (exampleProject coreServices) (loadOmitPaths exampleOmit) := by
  have hagrees : Agrees (exampleProject coreServices) corePython exampleOmit :=
    agrees_example _ _ _
  have hlive : IsLive (exampleProject coreServices) (loadOmitPaths exampleOmit) coreServices :=
    isLive_services _ _
  have hrecognised : Recognised (exampleProject coreServices) (loadOmitPaths exampleOmit)
      coreServices (upload "core.utils.s3".toList) :=
    ⟨s3File, isDormant_s3File _ _, by decide⟩
  have hexcused : ¬ Excused coreServices (upload "core.utils.s3".toList) := by
    rw [Excused]
    decide
  refine ⟨hagrees, (gate_exact_iff hagrees).mpr (.inl ⟨not_belowTests_example _ _, ?_, ?_⟩)⟩
  · intro _
    exact .inr ⟨_, hlive, _, parse_services _ _ _, upload _,
      .child List.mem_cons_self (.root _), hrecognised, hexcused⟩
  · intro _
    refine .inr ⟨_, hlive, _, parse_services _ _ _, upload _,
      .child List.mem_cons_self (.root _), hrecognised.resolves ?_⟩
    rintro ⟨-, hrelative⟩
    cases hrelative

/-- `from apps.core.utils.s3 import upload`, the same module in its other spelling. -/
def appsServices : File := servicesFile "apps.core.utils.s3".toList (by decide)

/-- The parser of that. -/
def appsPython : Python := examplePython "apps.core.utils.s3".toList (List.cons_ne_nil _ _)

/-- It is not reported. -/
theorem gate_misses_apps_spelling :
    ¬ ∀ (py : Python) (p : Project) (raw : Str), Agrees p py raw →
      ExitCodeRight py p (loadOmitPaths raw) := by
  intro halways
  have hagrees : Agrees (exampleProject appsServices) appsPython exampleOmit :=
    agrees_example _ _ _
  have hbelow : ¬ BelowTests (exampleProject appsServices) (loadOmitPaths exampleOmit) :=
    not_belowTests_example _ _
  have hparses : appsPython.parse appsServices.source =
      some ⟨none, .other [upload "apps.core.utils.s3".toList]⟩ := parse_services _ _ _
  have hlive : IsLive (exampleProject appsServices) (loadOmitPaths exampleOmit) appsServices :=
    isLive_services _ _
  have hnot : ¬ Recognised (exampleProject appsServices) (loadOmitPaths exampleOmit)
      appsServices (upload "apps.core.utils.s3".toList) := by
    rintro ⟨d, hd, hpath⟩
    rw [eq_s3File _ _ hd] at hpath
    exact absurd hpath (by decide)
  have hwaived : ¬ Waived appsServices (upload "apps.core.utils.s3".toList) := by
    rw [Waived]
    decide
  have hspelled : SpelledApps (exampleProject appsServices) (loadOmitPaths exampleOmit)
      appsServices (upload "apps.core.utils.s3".toList) :=
    ⟨rfl, s3File, isDormant_s3File _ _, by decide⟩
  obtain ⟨hseen, -⟩ :=
    (exitCodeRight_of_not_belowTests hagrees hbelow).mp (halways _ _ _ hagrees)
  rcases hseen ⟨appsServices, hlive, _, hparses, _, .child List.mem_cons_self (.root _), hwaived,
      .inl ⟨hnot, .inl hspelled⟩⟩ with
    ⟨f, hf, hparse⟩ | ⟨f, hf, m, hparse, node, hwithin, hrecognised, -⟩
  · obtain rfl : f = appsServices := eq_services _ _ hf
    rw [hparses] at hparse
    cases hparse
  · obtain rfl : f = appsServices := eq_services _ _ hf
    rw [hparses] at hparse
    cases hparse
    rcases within_upload hwithin with rfl | rfl
    · obtain ⟨d, -, hpath⟩ := hrecognised
      cases hpath
    · exact hnot hrecognised

end Dormant

end DjangoBoilerplate
