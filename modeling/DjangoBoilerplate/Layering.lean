import DjangoBoilerplate.Imports
import Mathlib.Data.Char
import Mathlib.Data.List.Lex

/-!
# The layering gate

`scripts/check_layering.py` keeps `apps/core` from importing the apps next to it and `config`. It
compares the text of every import statement with a list of names, and looks neither at what a
statement takes out of the package `apps` nor at the dots of a relative import:
`gate_decides_iff` says on which modules it decides the rule all the same.
-/

namespace DjangoBoilerplate

namespace Layering

open Imports

/-! ## The gate -/

/-- `apps`, the package the apps lie in. -/
def apps : Str := "apps".toList

/-- `core`, the app that is checked. -/
def core : Str := "core".toList

/-- `config`, the package of the settings. -/
def config : Str := "config".toList

/-- An entry of the directory `apps/`. -/
structure Entry : Type where
  /-- `p.name` -/
  name : Str
  /-- `p.is_dir()` -/
  isDir : Bool
  /-- `(p / "__init__.py").exists()` -/
  hasInit : Bool

/-- `apps/`. What is a package in it has a name that can be imported. -/
structure AppsDir : Type where
  /-- the entries -/
  entries : List Entry
  /-- names of packages are identifiers, and not that of the directory -/
  name_ok : ∀ entry ∈ entries, entry.isDir = true → entry.hasInit = true →
    entry.name ≠ [] ∧ '.' ∉ entry.name ∧ entry.name ≠ apps

/-- `_domain_apps()`. -/
def domainApps (dir : AppsDir) : List Str :=
  ((dir.entries.filter fun p => p.isDir && p.name != core && p.hasInit).map
    Entry.name).mergeSort fun a b => decide (a ≤ b)

/-- `_forbidden_prefixes()`. -/
def forbiddenPrefixes (dir : AppsDir) : List Str :=
  config :: (domainApps dir).flatMap fun app => [apps ++ '.' :: app, app]

/-- `name == prefix or name.startswith(prefix + ".")`. -/
def hits (name forbidden : Str) : Bool :=
  name == forbidden || (forbidden ++ ['.']).isPrefixOf name

/-- What the loop in `_violations` appends for a name: an entry for each prefix it has. -/
def entriesFor (forbidden : List Str) (lines : Lines) (name : Str) : List (ℕ × Str) :=
  (forbidden.filter (hits name)).map fun _ => (lines.first, name)

/-- The body of the loop in `_violations`. -/
def nodeViolations (forbidden : List Str) : Node → List (ℕ × Str)
  | .importFrom (some module) _ _ lines =>
    if module = [] then [] else entriesFor forbidden lines module
  | .importFrom none _ _ _ => []
  | .importNames names lines => names.flatMap (entriesFor forbidden lines)
  | .other _ => []

/-- `_violations`, on the parsed module. -/
def violations (tree : Node) (forbidden : List Str) : List (ℕ × Str) :=
  (walk [tree]).flatMap (nodeViolations forbidden)

/-! ## The rule -/

/-- A module that core must not import: `config`, an app, or something below them. -/
def Forbidden (dir : AppsDir) (path : List Str) : Prop :=
  [config] <+: path ∨ ∃ app ∈ domainApps dir, [apps, app] <+: path ∨ [app] <+: path

/-- The package of a module under `apps/core`. -/
def corePackage (subpackages : List Str) : List Str := apps :: core :: subpackages

/-- The module breaks the rule: one of its import statements imports a forbidden module. -/
def BreaksRule (dir : AppsDir) (subpackages : List Str) (tree : Node) : Prop :=
  ∃ node, node.Within tree ∧
    ∃ path ∈ imported (corePackage subpackages) node, Forbidden dir path

/-! ## The apps -/

section

variable {dir : AppsDir} {app : Str}

theorem mem_domainApps (h : app ∈ domainApps dir) :
    app ≠ core ∧ app ≠ [] ∧ '.' ∉ app ∧ app ≠ apps := by
  rw [domainApps, List.mem_mergeSort, List.mem_map] at h
  obtain ⟨entry, hentry, rfl⟩ := h
  obtain ⟨hmem, hkept⟩ := List.mem_filter.mp hentry
  rw [Bool.and_eq_true, Bool.and_eq_true] at hkept
  obtain ⟨⟨hdir, hcore⟩, hinit⟩ := hkept
  exact ⟨bne_iff_ne.mp hcore, dir.name_ok entry hmem hdir hinit⟩

theorem split_app (h : app ∈ domainApps dir) : Str.split '.' app = [app] :=
  Str.split_of_not_mem (mem_domainApps h).2.2.1

theorem split_apps_app (h : app ∈ domainApps dir) :
    Str.split '.' (apps ++ '.' :: app) = [apps, app] := by
  rw [Str.split_append_cons (by decide), split_app h]

/-! ## Names -/

theorem hits_iff {name forbidden : Str} :
    hits name forbidden = true ↔ Str.split '.' forbidden <+: Str.split '.' name := by
  rw [hits, Bool.or_eq_true, beq_iff_eq, List.isPrefixOf_iff_prefix, Str.split_prefix_iff]

/-- A name is forbidden as a text exactly if it is as a path. -/
theorem exists_hits_iff {name : Str} :
    (∃ forbidden ∈ forbiddenPrefixes dir, hits name forbidden = true) ↔
      Forbidden dir (Str.split '.' name) := by
  constructor
  · rintro ⟨forbidden, hmem, hhits⟩
    rw [hits_iff] at hhits
    rcases List.mem_cons.mp hmem with rfl | hmem
    · exact .inl hhits
    · obtain ⟨app, happ, hmem⟩ := List.mem_flatMap.mp hmem
      refine .inr ⟨app, happ, ?_⟩
      rcases List.mem_pair.mp hmem with rfl | rfl
      · exact .inl (by rwa [split_apps_app happ] at hhits)
      · exact .inr (by rwa [split_app happ] at hhits)
  · rintro (hconfig | ⟨app, happ, hpath⟩)
    · exact ⟨config, List.mem_cons_self, hits_iff.mpr hconfig⟩
    · rcases hpath with hpath | hpath
      · refine ⟨apps ++ '.' :: app, ?_, hits_iff.mpr (by rwa [split_apps_app happ])⟩
        exact List.mem_cons_of_mem _ (List.mem_flatMap.mpr ⟨app, happ, List.mem_cons_self⟩)
      · refine ⟨app, ?_, hits_iff.mpr (by rwa [split_app happ])⟩
        exact List.mem_cons_of_mem _ (List.mem_flatMap.mpr ⟨app, happ, by simp⟩)

theorem entriesFor_ne_nil {lines : Lines} {name : Str} :
    entriesFor (forbiddenPrefixes dir) lines name ≠ [] ↔ Forbidden dir (Str.split '.' name) := by
  rw [← exists_hits_iff, entriesFor, Ne, List.map_eq_nil_iff, List.filter_eq_nil_iff]
  simp

/-! ## Paths -/

theorem forbidden_apps_cons {path : List Str} :
    Forbidden dir (apps :: path) ↔ ∃ app ∈ domainApps dir, path.head? = some app := by
  constructor
  · rintro (hconfig | ⟨app, happ, hpath | hpath⟩)
    · exact absurd (List.cons_prefix_cons.mp hconfig).1 (by decide)
    · obtain ⟨rest, rfl⟩ := (List.cons_prefix_cons.mp hpath).2
      exact ⟨app, happ, rfl⟩
    · exact absurd (List.cons_prefix_cons.mp hpath).1 (mem_domainApps happ).2.2.2
  · rintro ⟨app, happ, hhead⟩
    obtain ⟨rest, rfl⟩ := List.head?_eq_some_iff.mp hhead
    exact .inr ⟨app, happ, .inl ⟨rest, rfl⟩⟩

/-- Core itself is never forbidden. -/
theorem not_forbidden_core (path : List Str) : ¬ Forbidden dir (apps :: core :: path) := by
  rw [forbidden_apps_cons]
  rintro ⟨app, happ, hhead⟩
  exact (mem_domainApps happ).1 (Option.some.inj hhead).symm

theorem forbidden_of_head {path : List Str} (happ : app ∈ domainApps dir)
    (h : path.head? = some app) : Forbidden dir path := by
  obtain ⟨rest, rfl⟩ := List.head?_eq_some_iff.mp h
  exact .inr ⟨app, happ, .inr ⟨rest, rfl⟩⟩

theorem Forbidden.append {path : List Str} (h : Forbidden dir path) (rest : List Str) :
    Forbidden dir (path ++ rest) := by
  have happend := List.prefix_append path rest
  rcases h with h | ⟨app, happ, h | h⟩
  · exact .inl (h.trans happend)
  · exact .inr ⟨app, happ, .inl (h.trans happend)⟩
  · exact .inr ⟨app, happ, .inr (h.trans happend)⟩

/-- What is taken out of a module that is not forbidden is not, unless it is an app out of
`apps`. -/
theorem forbidden_concat_iff {path : List Str} (hpath : path ≠ []) {name : Str} :
    Forbidden dir (path ++ [name]) ↔
      Forbidden dir path ∨ path = [apps] ∧ name ∈ domainApps dir := by
  constructor
  · match path with
    | [] => exact absurd rfl hpath
    | [first] =>
      rintro (h | ⟨app, happ, h | h⟩)
      · exact .inl (.inl ⟨[], by rw [(List.cons_prefix_cons.mp h).1]; rfl⟩)
      · obtain ⟨rfl, hsecond⟩ := List.cons_prefix_cons.mp h
        rw [(List.cons_prefix_cons.mp hsecond).1] at happ
        exact .inr ⟨rfl, happ⟩
      · exact .inl (.inr ⟨app, happ, .inr ⟨[], by rw [(List.cons_prefix_cons.mp h).1]; rfl⟩⟩)
    | first :: second :: rest =>
      rintro (h | ⟨app, happ, h | h⟩)
      · exact .inl (.inl ⟨second :: rest, by rw [(List.cons_prefix_cons.mp h).1]; rfl⟩)
      · obtain ⟨rfl, hsecond⟩ := List.cons_prefix_cons.mp h
        obtain ⟨rfl, -⟩ := List.cons_prefix_cons.mp hsecond
        exact .inl (.inr ⟨app, happ, .inl ⟨rest, rfl⟩⟩)
      · obtain ⟨rfl, -⟩ := List.cons_prefix_cons.mp h
        exact .inl (.inr ⟨app, happ, .inr ⟨second :: rest, rfl⟩⟩)
  · rintro (h | ⟨rfl, hname⟩)
    · exact h.append [name]
    · exact .inr ⟨name, hname, .inl (List.prefix_refl _)⟩

end

/-! ## Statements -/

/-- A statement that is reported and breaks the rule, in a package of the given depth: it imports a
forbidden module by its full name, or goes up to `apps` by its dots and down into an app. -/
def RightlyReported (dir : AppsDir) (depth : ℕ) : Node → Prop
  | .importFrom (some module) _ level _ =>
    level = 0 ∧ Forbidden dir (Str.split '.' module) ∨
      level = depth ∧ ∃ app ∈ domainApps dir, (Str.split '.' module).head? = some app
  | .importFrom none _ _ _ => False
  | .importNames names _ => ∃ name ∈ names, Forbidden dir (Str.split '.' name)
  | .other _ => False

/-- One that breaks the rule and is not reported: an app is taken out of `apps`, written as
`from apps import app` or with dots only. -/
def Missed (dir : AppsDir) (depth : ℕ) : Node → Prop
  | .importFrom (some module) names level _ =>
    module = apps ∧ level = 0 ∧ ∃ name ∈ names, name ∈ domainApps dir
  | .importFrom none names level _ => level = depth ∧ ∃ name ∈ names, name ∈ domainApps dir
  | .importNames _ _ => False
  | .other _ => False

/-- One that is reported and breaks nothing: a relative import that only looks like a forbidden one
without its dots. -/
def FalseAlarm (dir : AppsDir) (depth : ℕ) : Node → Prop
  | .importFrom (some module) _ level _ =>
    0 < level ∧ Forbidden dir (Str.split '.' module) ∧
      ¬ (level = depth ∧ ∃ app ∈ domainApps dir, (Str.split '.' module).head? = some app)
  | .importFrom none _ _ _ => False
  | .importNames _ _ => False
  | .other _ => False

section

variable {dir : AppsDir} {subpackages : List Str}

theorem not_forbidden_split_nil : ¬ Forbidden dir (Str.split '.' []) := by
  rintro (h | ⟨app, happ, h | h⟩)
  · exact absurd (List.cons_prefix_cons.mp h).1 (by decide)
  · exact absurd (List.cons_prefix_cons.mp h).1 (by decide)
  · exact (mem_domainApps happ).2.1 (List.cons_prefix_cons.mp h).1

/-- What is reported, statement by statement. -/
theorem nodeViolations_ne_nil {node : Node} (depth : ℕ) :
    nodeViolations (forbiddenPrefixes dir) node ≠ [] ↔
      RightlyReported dir depth node ∨ FalseAlarm dir depth node := by
  cases node with
  | importFrom module names level lines =>
    cases module with
    | none => simp [nodeViolations, RightlyReported, FalseAlarm]
    | some module =>
      have hreported : nodeViolations (forbiddenPrefixes dir)
          (.importFrom (some module) names level lines) ≠ [] ↔
            Forbidden dir (Str.split '.' module) := by
        rw [nodeViolations]
        split
        · next hnil =>
          rw [hnil]
          exact iff_of_false (fun h => h rfl) not_forbidden_split_nil
        · exact entriesFor_ne_nil
      rw [hreported, RightlyReported, FalseAlarm]
      constructor
      · intro h
        by_cases hlevel : level = 0
        · exact .inl (.inl ⟨hlevel, h⟩)
        · by_cases hup : level = depth ∧ ∃ app ∈ domainApps dir,
              (Str.split '.' module).head? = some app
          · exact .inl (.inr hup)
          · exact .inr ⟨Nat.pos_of_ne_zero hlevel, h, hup⟩
      · rintro ((⟨-, h⟩ | ⟨-, app, happ, hhead⟩) | ⟨-, h, -⟩)
        · exact h
        · exact forbidden_of_head happ hhead
        · exact h
  | importNames names lines =>
    rw [nodeViolations, Ne, List.flatMap_eq_nil_iff, RightlyReported, FalseAlarm, or_false]
    push Not
    exact exists_congr fun name => and_congr_right fun _ => entriesFor_ne_nil
  | other children => simp [nodeViolations, RightlyReported, FalseAlarm]

/-- The package that a relative import starts from is `apps`, or core or below it. -/
theorem take_corePackage (subpackages : List Str) {level : ℕ}
    (h : level < (corePackage subpackages).length) :
    (corePackage subpackages).take ((corePackage subpackages).length - level) =
      if level + 1 = (corePackage subpackages).length then [apps]
      else apps :: core :: subpackages.take (subpackages.length - level) := by
  have hlength : (corePackage subpackages).length = subpackages.length + 2 := rfl
  by_cases hup : level + 1 = (corePackage subpackages).length
  · rw [if_pos hup, show (corePackage subpackages).length - level = 1 by omega]
    rfl
  · rw [if_neg hup, show (corePackage subpackages).length - level =
      subpackages.length - level + 2 by omega]
    rfl

/-- A `from` statement whose module is known. -/
theorem exists_forbidden_base {base : List Str} (hbase : base ≠ []) (names : List Str) :
    (∃ path ∈ base :: names.map fun name => base ++ [name], Forbidden dir path) ↔
      Forbidden dir base ∨ base = [apps] ∧ ∃ name ∈ names, name ∈ domainApps dir := by
  constructor
  · rintro ⟨path, hpath, hforbidden⟩
    rcases List.mem_cons.mp hpath with rfl | hpath
    · exact .inl hforbidden
    · obtain ⟨name, hname, rfl⟩ := List.mem_map.mp hpath
      rcases (forbidden_concat_iff hbase).mp hforbidden with h | ⟨happs, happ⟩
      · exact .inl h
      · exact .inr ⟨happs, name, hname, happ⟩
  · rintro (h | ⟨happs, name, hname, happ⟩)
    · exact ⟨base, List.mem_cons_self, h⟩
    · refine ⟨base ++ [name], List.mem_cons_of_mem _ (List.mem_map.mpr ⟨name, hname, rfl⟩), ?_⟩
      exact (forbidden_concat_iff hbase).mpr (.inr ⟨happs, happ⟩)

theorem split_eq_apps {module : Str} : Str.split '.' module = [apps] ↔ module = apps := by
  constructor
  · intro h
    rw [← Str.join_split '.' module, h]
    rfl
  · rintro rfl
    rfl

/-- A relative import breaks the rule if it goes up to `apps` and takes an app from there. -/
theorem exists_forbidden_relative {module : Option Str} {names : List Str} {level : ℕ}
    {lines : Lines} :
    (∃ path ∈ imported (corePackage subpackages) (.importFrom module names (level + 1) lines),
        Forbidden dir path) ↔
      level + 1 = (corePackage subpackages).length ∧
        match module with
        | some module => ∃ app ∈ domainApps dir, (Str.split '.' module).head? = some app
        | none => ∃ name ∈ names, name ∈ domainApps dir := by
  by_cases hinside : level < (corePackage subpackages).length
  · by_cases hup : level + 1 = (corePackage subpackages).length
    · simp only [imported, resolve, if_pos hinside, take_corePackage subpackages hinside,
        if_pos hup, List.singleton_append]
      rw [exists_forbidden_base (List.cons_ne_nil _ _), forbidden_apps_cons]
      cases module with
      | none => simp [hup]
      | some module => simp [hup, Str.split_ne_nil]
    · simp only [imported, resolve, if_pos hinside, take_corePackage subpackages hinside,
        if_neg hup]
      rw [exists_forbidden_base (by simp)]
      simp [hup, not_forbidden_core]
  · have hup : level + 1 ≠ (corePackage subpackages).length := by omega
    simp [imported, resolve, hinside, hup]

/-- The statement breaks the rule exactly if it is of one of two kinds. -/
theorem exists_forbidden_iff {node : Node} :
    (∃ path ∈ imported (corePackage subpackages) node, Forbidden dir path) ↔
      RightlyReported dir (corePackage subpackages).length node ∨
        Missed dir (corePackage subpackages).length node := by
  cases node with
  | importFrom module names level lines =>
    cases level with
    | zero =>
      cases module with
      | none => simp [imported, resolve, RightlyReported, Missed, corePackage]
      | some module =>
        simp only [imported, resolve, RightlyReported, Missed]
        rw [exists_forbidden_base (Str.split_ne_nil '.' module), split_eq_apps]
        simp [corePackage]
    | succ level =>
      rw [exists_forbidden_relative]
      cases module with
      | none => simp [RightlyReported, Missed]
      | some module => simp [RightlyReported, Missed]
  | importNames names lines => simp [imported, RightlyReported, Missed]
  | other children => simp [imported, RightlyReported, Missed]

/-! ## Modules -/

/-- There is a statement of a kind in the module. -/
def Has (tree : Node) (kind : Node → Prop) : Prop := ∃ node, node.Within tree ∧ kind node

theorem has_or {tree : Node} {kind kind' : Node → Prop} :
    Has tree (fun node => kind node ∨ kind' node) ↔ Has tree kind ∨ Has tree kind' := by
  constructor
  · rintro ⟨node, hwithin, h | h⟩
    · exact .inl ⟨node, hwithin, h⟩
    · exact .inr ⟨node, hwithin, h⟩
  · rintro (⟨node, hwithin, h⟩ | ⟨node, hwithin, h⟩)
    · exact ⟨node, hwithin, .inl h⟩
    · exact ⟨node, hwithin, .inr h⟩

/-- The gate reports a module for what it rightly reports and for its false alarms. -/
theorem violations_ne_nil_iff {tree : Node} (depth : ℕ) :
    violations tree (forbiddenPrefixes dir) ≠ [] ↔
      Has tree (RightlyReported dir depth) ∨ Has tree (FalseAlarm dir depth) := by
  rw [← has_or, violations, Ne, List.flatMap_eq_nil_iff]
  push Not
  refine exists_congr fun node => ?_
  rw [mem_walk_iff, nodeViolations_ne_nil depth]
  simp

theorem breaksRule_iff {tree : Node} :
    BreaksRule dir subpackages tree ↔
      Has tree (RightlyReported dir (subpackages.length + 2)) ∨
        Has tree (Missed dir (subpackages.length + 2)) := by
  rw [← has_or]
  exact exists_congr fun node => and_congr_right fun _ => exists_forbidden_iff

end

/-- The gate decides the rule on a module exactly if it has something to report rightly, or misses
a statement just when it raises a false alarm about another. -/
theorem gate_decides_iff (dir : AppsDir) (subpackages : List Str) (tree : Node) :
    (violations tree (forbiddenPrefixes dir) ≠ [] ↔ BreaksRule dir subpackages tree) ↔
      Has tree (RightlyReported dir (subpackages.length + 2)) ∨
        (Has tree (Missed dir (subpackages.length + 2)) ↔
          Has tree (FalseAlarm dir (subpackages.length + 2))) := by
  rw [violations_ne_nil_iff (subpackages.length + 2), breaksRule_iff]
  constructor
  · intro h
    by_cases hright : Has tree (RightlyReported dir (subpackages.length + 2))
    · exact .inl hright
    · rw [or_iff_right hright, or_iff_right hright] at h
      exact .inr h.symm
  · rintro (hright | h)
    · exact iff_of_true (.inl hright) (.inl hright)
    · rw [h]

/-- `apps/` as it is: core and accounts. -/
def exampleDir : AppsDir where
  entries := [⟨core, true, true⟩, ⟨"accounts".toList, true, true⟩]
  name_ok := by
    intro entry hentry _ _
    rcases List.mem_pair.mp hentry with rfl | rfl
    · exact ⟨by decide, by decide, by decide⟩
    · exact ⟨by decide, by decide, by decide⟩

/-- A module that holds one statement. -/
def exampleModule (statement : Node) : Node := .other [statement]

/-- `from apps import accounts` in `apps/core/utils.py` is not reported. -/
theorem gate_misses_from_apps :
    ¬ ∀ (dir : AppsDir) (subpackages : List Str) (tree : Node),
      violations tree (forbiddenPrefixes dir) ≠ [] ↔ BreaksRule dir subpackages tree := by
  intro halways
  have hdecides := halways exampleDir []
    (exampleModule (.importFrom (some apps) ["accounts".toList] 0 ⟨1, 1⟩))
  have haccounts : "accounts".toList ∈ domainApps exampleDir := by
    rw [domainApps, List.mem_mergeSort]
    decide
  have hbreaks : BreaksRule exampleDir []
      (exampleModule (.importFrom (some apps) ["accounts".toList] 0 ⟨1, 1⟩)) := by
    refine ⟨_, .child List.mem_cons_self (.root _), [apps, "accounts".toList], ?_, ?_⟩
    · decide
    · exact .inr ⟨_, haccounts, .inl (List.prefix_refl _)⟩
  have hempty : entriesFor (forbiddenPrefixes exampleDir) ⟨1, 1⟩ apps = [] := by
    by_contra hreported
    obtain ⟨app, -, hhead⟩ := forbidden_apps_cons.mp (entriesFor_ne_nil.mp hreported)
    cases hhead
  refine hdecides.mpr hbreaks ?_
  simp [violations, exampleModule, walk, Node.children, nodeViolations, hempty]

end Layering

end DjangoBoilerplate
