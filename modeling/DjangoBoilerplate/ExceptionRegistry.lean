import DjangoBoilerplate.ExceptionHandler

/-!
# Which status a registered exception gets

`apps/core/exceptions/handler.py` registers the classes of the core when it is imported,
so its mappings come before those of every domain app, and the handler takes the **first**
mapping the exception is an instance of. A domain class is therefore reached only if it
derives from no class the core has registered, or if that class has the same status
(`status_registered_iff`). Registering it before its own parents does not help: the parent
that counts is already there.
-/

namespace DjangoBoilerplate

namespace ExceptionHandler

universe u

/-! ## The classes of the core -/

/-- The classes the core registers, and those they derive from. -/
inductive CoreClass : Type where
  | baseCustomError
  | repositoryError
  | entityNotFoundError
  | inactiveParentError
  | invalidInputError
  | infrastructureError
  | serviceUnavailableError
  | externalServiceError
  | externalTimeoutError
  | s3Exception
  | sesException
  | outboundURLNotAllowedError
  deriving DecidableEq

namespace CoreClass

/-- A class and what it derives from, as the `class` statements have it. -/
def mro : CoreClass → List CoreClass
  | baseCustomError => [baseCustomError]
  | repositoryError => [repositoryError, baseCustomError]
  | entityNotFoundError => [entityNotFoundError, repositoryError, baseCustomError]
  | inactiveParentError => [inactiveParentError, repositoryError, baseCustomError]
  | invalidInputError => [invalidInputError, repositoryError, baseCustomError]
  | infrastructureError => [infrastructureError, baseCustomError]
  | serviceUnavailableError => [serviceUnavailableError, infrastructureError, baseCustomError]
  | externalServiceError => [externalServiceError, infrastructureError, baseCustomError]
  | externalTimeoutError =>
    [externalTimeoutError, externalServiceError, infrastructureError, baseCustomError]
  | s3Exception => [s3Exception, externalServiceError, infrastructureError, baseCustomError]
  | sesException => [sesException, externalServiceError, infrastructureError, baseCustomError]
  | outboundURLNotAllowedError =>
    [outboundURLNotAllowedError, infrastructureError, baseCustomError]

theorem head?_mro (c : CoreClass) : c.mro.head? = some c := by
  cases c <;> rfl

/-- `issubclass`: every class has one base, so the line of a class ends in that of each
class it derives from. -/
instance : PartialOrder CoreClass where
  le c d := d.mro <:+ c.mro
  le_refl c := List.suffix_refl c.mro
  le_trans _ _ _ h h' := h'.trans h
  le_antisymm c d h h' := by
    have heq : c.mro = d.mro := h'.eq_of_length_le h.length_le
    have hhead := head?_mro c
    rw [heq, head?_mro d] at hhead
    exact (Option.some.inj hhead).symm

instance : DecidableLE CoreClass := fun c d => inferInstanceAs (Decidable (d.mro <:+ c.mro))

theorem le_baseCustomError (c : CoreClass) : c ≤ baseCustomError := by
  cases c <;> decide

end CoreClass

/-- A hierarchy under `BaseCustomError`, with the classes of the core in it. -/
structure Hierarchy (κ : Type u) [PartialOrder κ] : Type u where
  /-- the classes of the core, related as they are there -/
  core : CoreClass ↪o κ
  /-- every class derives from `BaseCustomError` -/
  le_base : ∀ c, c ≤ core .baseCustomError

section Registry

variable {κ : Type u} [PartialOrder κ] [DecidableLE κ]

/-- The mappings the module registers when it is imported, in order. -/
def Hierarchy.coreMappings (H : Hierarchy κ) : List (Mapping κ) :=
  [(H.core .entityNotFoundError, 404), (H.core .serviceUnavailableError, 503),
    (H.core .externalTimeoutError, 502), (H.core .s3Exception, 502), (H.core .sesException, 502),
    (H.core .externalServiceError, 502), (H.core .outboundURLNotAllowedError, 400),
    (H.core .inactiveParentError, 409), (H.core .invalidInputError, 400)]

/-- What happens after the import. -/
inductive Call (κ : Type u) : Type u where
  /-- a domain app registers a mapping -/
  | register (m : Mapping κ) : Call κ
  /-- an exception is handled, in a request with the given id -/
  | handle (current : Option Str) (exc : Raised κ) : Call κ

variable (r : Reprs) (errorDetail : Str → Str → Str)

/-- The registry after a call. -/
def Call.apply (s : StatusMap κ) : Call κ → StatusMap κ
  | .register m => s.registerExceptionMapping m
  | .handle current exc => (apiExceptionHandler r errorDetail s current exc).2

/-- The mappings the calls register. -/
def registrations : List (Call κ) → List (Mapping κ)
  | [] => []
  | .register m :: calls => m :: registrations calls
  | .handle _ _ :: calls => registrations calls

/-- The registry after the import of the module. -/
def Hierarchy.imported (H : Hierarchy κ) : StatusMap κ :=
  H.coreMappings.foldl StatusMap.registerExceptionMapping .empty

/-- The registry after the import and some calls. -/
def Hierarchy.afterCalls (H : Hierarchy κ) (calls : List (Call κ)) : StatusMap κ :=
  calls.foldl (Call.apply r errorDetail) H.imported

/-! ## The registry holds what was registered -/

/-- Handling an exception registers nothing. -/
theorem StatusMap.Fresh.handle {s : StatusMap κ} (h : s.Fresh) (current : Option Str)
    (exc : Raised κ) :
    (apiExceptionHandler r errorDetail s current exc).2.builder = s.builder ∧
      (apiExceptionHandler r errorDetail s current exc).2.Fresh := by
  obtain ⟨-, hbuilder, hfresh⟩ := h.getStatusMap
  cases exc with
  | custom exc =>
    simp only [apiExceptionHandler]
    split
    · exact ⟨rfl, h⟩
    · exact ⟨hbuilder, hfresh⟩
  | kit response => exact ⟨rfl, h⟩
  | framework typeName status detail requestId => exact ⟨rfl, h⟩
  | other => exact ⟨rfl, h⟩

/-- After any calls the registry holds the mappings in the order they were registered. -/
theorem StatusMap.Fresh.foldl {s : StatusMap κ} (h : s.Fresh) (calls : List (Call κ)) :
    (calls.foldl (Call.apply r errorDetail) s).builder = s.builder ++ registrations calls ∧
      (calls.foldl (Call.apply r errorDetail) s).Fresh := by
  induction calls generalizing s with
  | nil => exact ⟨(List.append_nil s.builder).symm, h⟩
  | cons call calls ih =>
    cases call with
    | register m =>
      have hfresh : (s.registerExceptionMapping m).Fresh := Or.inl rfl
      obtain ⟨hbuilder, hafter⟩ := ih hfresh
      refine ⟨?_, hafter⟩
      rw [List.foldl_cons, Call.apply, hbuilder]
      simp [StatusMap.registerExceptionMapping, registrations]
    | handle current exc =>
      obtain ⟨hsame, hfresh⟩ := h.handle r errorDetail current exc
      obtain ⟨hbuilder, hafter⟩ := ih hfresh
      refine ⟨?_, hafter⟩
      rw [List.foldl_cons, Call.apply, hbuilder, hsame, registrations]

omit [DecidableLE κ] in
theorem Hierarchy.imported_builder (H : Hierarchy κ) : H.imported.builder = H.coreMappings := rfl

omit [DecidableLE κ] in
theorem Hierarchy.imported_fresh (H : Hierarchy κ) : H.imported.Fresh := Or.inl rfl

/-- What the handler looks a class up in: the core's mappings, then the domain's. -/
theorem Hierarchy.getStatusMap_afterCalls (H : Hierarchy κ) (calls : List (Call κ)) :
    (H.afterCalls r errorDetail calls).getStatusMap.1 =
      H.coreMappings ++ registrations calls := by
  obtain ⟨hbuilder, hfresh⟩ := H.imported_fresh.foldl r errorDetail calls
  obtain ⟨hmap, -, -⟩ := hfresh.getStatusMap
  rw [Hierarchy.afterCalls, hmap, hbuilder, H.imported_builder]

/-! ## The first match -/

/-- Among mappings of distinct classes, none after a class it derives from, a class is
found at its own mapping. -/
theorem find?_of_specific_first {ms : List (Mapping κ)} (hdistinct : (ms.map Prod.fst).Nodup)
    (horder : ms.Pairwise fun m m' => ¬ m'.1 < m.1) {m : Mapping κ} (hm : m ∈ ms) :
    ms.find? (fun e => decide (m.1 ≤ e.1)) = some m := by
  induction ms with
  | nil => simp at hm
  | cons e ms ih =>
    rw [List.map_cons, List.nodup_cons] at hdistinct
    rw [List.pairwise_cons] at horder
    obtain ⟨hnotMem, hdistinct⟩ := hdistinct
    obtain ⟨hhead, horder⟩ := horder
    rcases List.mem_cons.mp hm with rfl | hm
    · simp
    · -- a match at the head would be a class that `m` derives from and comes after
      have hne : m.1 ≠ e.1 := fun heq => hnotMem (heq ▸ List.mem_map_of_mem hm)
      have hle : ¬ m.1 ≤ e.1 := fun hle => hhead m hm (lt_of_le_of_ne hle hne)
      rw [List.find?_cons_of_neg (by simpa using hle)]
      exact ih hdistinct horder hm

/-- The status of an instance is that of the first mapping it matches. -/
theorem statusOf_append {core domain : List (Mapping κ)} {exc : CustomExc κ}
    (hstatus : exc.statusCode = none) :
    statusOf (core ++ domain) exc =
      match core.find? fun m => decide (exc.cls ≤ m.1) with
      | some m => m.2
      | none => statusOf domain exc := by
  rw [statusOf, hstatus]
  simp only [List.find?_append]
  cases core.find? fun m => decide (exc.cls ≤ m.1) with
  | some m => rfl
  | none => simp [statusOf, hstatus]

/-- An instance of a registered class gets the status the class was registered with
exactly when the first class of the core it is an instance of, if there is one, was
registered with that status too. -/
theorem status_registered_iff (H : Hierarchy κ) (calls : List (Call κ))
    (hdistinct : ((H.coreMappings ++ registrations calls).map Prod.fst).Nodup)
    (horder : (registrations calls).Pairwise fun m m' => ¬ m'.1 < m.1)
    (m : Mapping κ) (hm : m ∈ H.coreMappings ++ registrations calls)
    (exc : CustomExc κ) (hcls : exc.cls = m.1) (hstatus : exc.statusCode = none)
    (current : Option Str) :
    (apiExceptionHandler r errorDetail (H.afterCalls r errorDetail calls) current
        (.custom exc)).1.status = m.2 ↔
      ∀ e, H.coreMappings.find? (fun e => decide (m.1 ≤ e.1)) = some e → e.2 = m.2 := by
  have hresult : (apiExceptionHandler r errorDetail (H.afterCalls r errorDetail calls) current
      (.custom exc)).1.status = statusOf (H.coreMappings ++ registrations calls) exc := by
    rw [← H.getStatusMap_afterCalls r errorDetail calls]
    rfl
  rw [hresult, statusOf_append hstatus, hcls]
  cases hfind : H.coreMappings.find? fun e => decide (m.1 ≤ e.1) with
  | some e => simp
  | none =>
    -- the core does not match, so the class is the domain's and found there
    have hdomain : m ∈ registrations calls := by
      rcases List.mem_append.mp hm with hcore | hdomain
      · exact absurd (List.find?_eq_none.mp hfind m hcore) (by simp)
      · exact hdomain
    rw [List.map_append, List.nodup_append] at hdistinct
    obtain ⟨-, hdistinct, -⟩ := hdistinct
    have hmatch := find?_of_specific_first hdistinct horder hdomain
    simp [statusOf, hstatus, hcls, hmatch]

end Registry

/-! ## A hierarchy with domain classes -/

/-- A class of the core (number `0`), or one of its direct subclasses in a domain app. -/
structure AppClass : Type where
  /-- the class of the core -/
  base : CoreClass
  /-- which of its subclasses -/
  number : ℕ
  deriving DecidableEq

namespace AppClass

instance : PartialOrder AppClass where
  le c d := c = d ∨ (d.number = 0 ∧ c.base ≤ d.base)
  le_refl c := Or.inl rfl
  le_trans c d e h h' := by
    rcases h with rfl | ⟨hd, h⟩
    · exact h'
    · rcases h' with rfl | ⟨he, h'⟩
      · exact Or.inr ⟨hd, h⟩
      · exact Or.inr ⟨he, h.trans h'⟩
  le_antisymm c d h h' := by
    rcases h with rfl | ⟨hd, h⟩
    · rfl
    · rcases h' with rfl | ⟨hc, h'⟩
      · rfl
      · cases c
        cases d
        simp_all only [AppClass.mk.injEq]
        exact ⟨le_antisymm h h', trivial⟩

instance : DecidableLE AppClass := fun c d =>
  inferInstanceAs (Decidable (c = d ∨ (d.number = 0 ∧ c.base ≤ d.base)))

end AppClass

/-- The classes of the core with their subclasses in domain apps. -/
def appHierarchy : Hierarchy AppClass where
  core :=
    { toFun := fun c => ⟨c, 0⟩
      inj' := fun _ _ h => congrArg AppClass.base h
      map_rel_iff' := by
        intro c d
        refine ⟨?_, fun h => Or.inr ⟨rfl, h⟩⟩
        rintro (h | ⟨-, h⟩)
        · exact le_of_eq (congrArg AppClass.base h)
        · exact h }
  le_base c := Or.inr ⟨rfl, c.base.le_baseCustomError⟩

/-- The recipe of the documentation: a direct subclass of `InfrastructureError` with a
status of its own, registered by a domain app. -/
theorem infrastructure_subclass_conflict :
    (apiExceptionHandler ⟨fun _ => true, fun _ _ => []⟩ (fun text _ => text)
      (appHierarchy.afterCalls ⟨fun _ => true, fun _ _ => []⟩ (fun text _ => text)
        [.register (⟨.infrastructureError, 1⟩, 409)]) none
      (.custom ⟨⟨.infrastructureError, 1⟩, none, [], ⟨[], [], none, none⟩, none⟩)).1.status
        = 409 := by
  refine (status_registered_iff _ _ appHierarchy [.register (⟨.infrastructureError, 1⟩, 409)]
    (by decide) (List.pairwise_singleton _ _) (⟨.infrastructureError, 1⟩, 409) (by decide) _ rfl
    rfl none).mpr ?_
  intro e he
  have hnone : appHierarchy.coreMappings.find?
      (fun e => decide ((⟨.infrastructureError, 1⟩ : AppClass) ≤ e.1)) = none := by decide
  rw [hnone] at he
  cases he

/-- A domain class that derives from `ExternalServiceError`, registered with 409, is
answered with the 502 of its parent. -/
theorem external_subclass_not_reached :
    ¬ ∀ (κ : Type) (_ : PartialOrder κ) (_ : DecidableLE κ) (H : Hierarchy κ)
      (calls : List (Call κ)) (r : Reprs) (errorDetail : Str → Str → Str),
      ((H.coreMappings ++ registrations calls).map Prod.fst).Nodup →
      (registrations calls).Pairwise (fun m m' => ¬ m'.1 < m.1) →
      ∀ m ∈ H.coreMappings ++ registrations calls, ∀ exc : CustomExc κ, exc.cls = m.1 →
        exc.statusCode = none → ∀ current : Option Str,
          (apiExceptionHandler r errorDetail (H.afterCalls r errorDetail calls) current
            (.custom exc)).1.status = m.2 := by
  intro halways
  have hstatus := halways AppClass inferInstance inferInstance appHierarchy
    [.register (⟨.externalServiceError, 1⟩, 409)] ⟨fun _ => true, fun _ _ => []⟩
    (fun text _ => text) (by decide) (List.pairwise_singleton _ _)
    (⟨.externalServiceError, 1⟩, 409) (by decide)
    ⟨⟨.externalServiceError, 1⟩, none, [], ⟨[], [], none, none⟩, none⟩ rfl rfl none
  revert hstatus
  decide

end ExceptionHandler

end DjangoBoilerplate
