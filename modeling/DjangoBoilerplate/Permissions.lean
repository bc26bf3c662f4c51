import DjangoBoilerplate.Memo
import DjangoBoilerplate.Text

/-!
# Roles and permissions

The role graph of `apps/accounts/models.py` and the check `user_has_permission` with the
permission class `HasResourcePermission` around it (`apps/core/permissions.py`).

With a request, the check keeps its answers in `request._permission_cache` under the
resource and the action. The user is not part of the key. A sequence of checks on one
request is answered as without the cache exactly if it never asks the same of two users
who differ in it (`cache_transparent_iff`).
-/

namespace DjangoBoilerplate

namespace Rbac

/-! ## The role graph -/

/-- `Resource`. -/
inductive Resource : Type where
  | account | role | apiKey
  deriving DecidableEq

/-- The value of a `Resource`. -/
def Resource.value : Resource → Str
  | .account => "account".toList
  | .role => "role".toList
  | .apiKey => "api_key".toList

/-- `Action`. -/
inductive Action : Type where
  | create | read | update | delete
  deriving DecidableEq

/-- The value of an `Action`. -/
def Action.value : Action → Str
  | .create => "create".toList
  | .read => "read".toList
  | .update => "update".toList
  | .delete => "delete".toList

/-- A `Permission` row. The check constraints keep other resources and actions out. -/
structure Permission : Type where
  /-- `resource` -/
  resource : Resource
  /-- `action` -/
  action : Action
  deriving DecidableEq

/-- A `Role`. -/
structure Role : Type where
  /-- `is_superuser_role` -/
  isSuperuserRole : Bool
  /-- `permissions` -/
  permissions : List Permission

/-- A `User` row. -/
structure Account : Type where
  /-- `is_active` -/
  isActive : Bool
  /-- `roles` -/
  roles : List Role

/-- Who asks: a `User`, or Django's `AnonymousUser`. -/
inductive User : Type where
  | anonymous : User
  | account (a : Account) : User

/-- `has_superuser_role`. -/
def Account.hasSuperuserRole (a : Account) : Bool := a.roles.any Role.isSuperuserRole

/-- `roles.filter(permissions__resource=..., permissions__action=...).exists()`. -/
def Account.holds (a : Account) (resource action : Str) : Bool :=
  a.roles.any fun role => role.permissions.any fun p =>
    p.resource.value == resource && p.action.value == action

/-! ## `user_has_permission` -/

/-- `request._permission_cache`, by resource and action. -/
abbrev Cache : Type := Str × Str → Option Bool

/-- What the checks use of a request: the cache, `None` before the first of them. -/
structure Request : Type where
  /-- `_permission_cache` -/
  permissionCache : Option Cache

/-- `user_has_permission(user, resource, action)`, without a request. -/
def userHasPermission (user : Option User) (resource action : Str) : Bool :=
  match user with
  | none => false
  | some .anonymous => false
  | some (.account a) => if a.hasSuperuserRole then true else a.holds resource action

/-- `user_has_permission(user, resource, action, request=request)`, with the request as it
leaves it. -/
def userHasPermissionOn (request : Request) (user : Option User) (resource action : Str) :
    Bool × Request :=
  match user with
  | none => (false, request)
  | some .anonymous => (false, request)
  | some (.account a) =>
    if a.hasSuperuserRole then (true, request)
    else
      let cache := request.permissionCache.getD fun _ => none
      match cache (resource, action) with
      | some result => (result, ⟨some cache⟩)
      | none =>
        let result := a.holds resource action
        (result, ⟨some (Function.update cache (resource, action) (some result))⟩)

/-- A check on a request. -/
inductive Check : Type where
  /-- `user_has_permission(user, resource, action, request=request)` -/
  | call (user : Option User) (resource action : Str) : Check
  /-- `HasResourcePermission` with the request's user and the `resource` and `action` of the
  view, where it has them -/
  | view (user : Option User) (resource action : Option Str) : Check

/-- An attribute that is set and not empty. -/
def truthy : Option Str → Option Str
  | some (c :: s) => some (c :: s)
  | _ => none

/-- The check on a request. -/
def Check.on (request : Request) : Check → Bool × Request
  | .call user resource action => userHasPermissionOn request user resource action
  | .view user resource action =>
    match truthy resource, truthy action with
    | some resource, some action => userHasPermissionOn request user resource action
    | _, _ => (false, request)

/-- The check without a cache. -/
def Check.uncached : Check → Bool
  | .call user resource action => userHasPermission user resource action
  | .view user resource action =>
    match truthy resource, truthy action with
    | some resource, some action => userHasPermission user resource action
    | _, _ => false

/-- The answers to some checks on one request, in turn. -/
def checkAll : Request → List Check → List Bool
  | _, [] => []
  | request, c :: cs => (c.on request).1 :: checkAll (c.on request).2 cs

/-! ## The cache -/

/-- The account the user is, if the role graph decides: authenticated, without a superuser
role. -/
def Account.ofUser : Option User → Option Account
  | some (.account a) => if a.hasSuperuserRole then none else some a
  | _ => none

/-- The account, resource and action a check asks the role graph about, if it does. -/
def Check.asks : Check → Option (Account × Str × Str)
  | .call user resource action => (Account.ofUser user).map fun a => (a, resource, action)
  | .view user resource action =>
    match truthy resource, truthy action with
    | some resource, some action => (Account.ofUser user).map fun a => (a, resource, action)
    | _, _ => none

/-- The cache key of a check. -/
def Check.key (c : Check) : Option (Str × Str) := c.asks.map fun q => (q.2.1, q.2.2)

/-- The cache of a request, empty before the first check. -/
def Request.cache (request : Request) : Cache := request.permissionCache.getD fun _ => none

/-- A check either calls `user_has_permission` or is of a view that lacks an attribute. -/
theorem Check.cases (c : Check) :
    (∃ user resource action,
      (∀ request, c.on request = userHasPermissionOn request user resource action) ∧
        c.uncached = userHasPermission user resource action ∧
          c.asks = (Account.ofUser user).map fun a => (a, resource, action)) ∨
      ((∀ request, c.on request = (false, request)) ∧ c.uncached = false ∧ c.asks = none) := by
  cases c with
  | call user resource action =>
    exact .inl ⟨user, resource, action, fun _ => rfl, rfl, rfl⟩
  | view user resource action =>
    simp only [Check.on, Check.uncached, Check.asks]
    split
    · next resource action _ _ =>
      exact .inl ⟨user, resource, action, fun _ => rfl, rfl, rfl⟩
    · exact .inr ⟨fun _ => rfl, rfl, rfl⟩

/-- A user either is answered at once or is an account the role graph is asked about. -/
theorem ofUser_cases (user : Option User) :
    (Account.ofUser user = none ∧ ∀ request resource action,
      userHasPermissionOn request user resource action =
        (userHasPermission user resource action, request)) ∨
      ∃ a, user = some (.account a) ∧ a.hasSuperuserRole = false ∧
        Account.ofUser user = some a := by
  cases user with
  | none => exact .inl ⟨rfl, fun _ _ _ => rfl⟩
  | some user =>
    cases user with
    | anonymous => exact .inl ⟨rfl, fun _ _ _ => rfl⟩
    | account a =>
      cases hsuper : a.hasSuperuserRole with
      | true =>
        refine .inl ⟨by simp [Account.ofUser, hsuper], ?_⟩
        intro request resource action
        simp [userHasPermissionOn, userHasPermission, hsuper]
      | false => exact .inr ⟨a, rfl, hsuper, by simp [Account.ofUser, hsuper]⟩

/-- What the role graph is asked is what is answered. -/
theorem uncached_of_asks {c : Check} {a : Account} {resource action : Str}
    (h : c.asks = some (a, resource, action)) : c.uncached = a.holds resource action := by
  rcases c.cases with ⟨user, r, x, -, huncached, hasks⟩ | ⟨-, -, hasks⟩
  · rw [hasks] at h
    obtain ⟨a', ha', heq⟩ := Option.map_eq_some_iff.mp h
    obtain ⟨rfl, rfl, rfl⟩ : a' = a ∧ r = resource ∧ x = action := by simpa using heq
    rcases ofUser_cases user with ⟨hnone, -⟩ | ⟨b, rfl, hsuper, hsome⟩
    · cases hnone.symm.trans ha'
    · obtain rfl := Option.some.inj (hsome.symm.trans ha')
      rw [huncached]
      simp [userHasPermission, hsuper]
  · cases hasks.symm.trans h

/-- A check on a request is a question to a cache that does not know the user. -/
theorem on_eq_ask (request : Request) (c : Check) :
    (c.on request).1 = (Memo.ask Check.key Check.uncached request.cache c).1 ∧
      (c.on request).2.cache = (Memo.ask Check.key Check.uncached request.cache c).2 := by
  rcases c.cases with ⟨user, resource, action, hon, huncached, hasks⟩ | ⟨hon, huncached, hasks⟩
  · rcases ofUser_cases user with ⟨hnone, hdirect⟩ | ⟨a, rfl, hsuper, hsome⟩
    · rw [Memo.ask_uncached (by simp [Check.key, hasks, hnone]), hon, hdirect, huncached]
      exact ⟨rfl, rfl⟩
    · have hkey : c.key = some (resource, action) := by simp [Check.key, hasks, hsome]
      rw [hon]
      cases hcache : request.cache (resource, action) with
      | some b =>
        rw [Memo.ask_hit hkey hcache]
        rw [Request.cache] at hcache
        simp [userHasPermissionOn, hsuper, hcache, Request.cache]
      | none =>
        rw [Memo.ask_miss hkey hcache, huncached]
        rw [Request.cache] at hcache
        simp [userHasPermissionOn, userHasPermission, hsuper, hcache, Request.cache]
  · rw [Memo.ask_uncached (by simp [Check.key, hasks]), hon, huncached]
    exact ⟨rfl, rfl⟩

theorem checkAll_eq_askAll (request : Request) (cs : List Check) :
    checkAll request cs = Memo.askAll Check.key Check.uncached request.cache cs := by
  induction cs generalizing request with
  | nil => rfl
  | cons c cs ih =>
    obtain ⟨hanswer, hcache⟩ := on_eq_ask request c
    rw [checkAll, Memo.askAll, ih, hanswer, hcache]

/-- **The cache is transparent exactly if the checks never ask the same of two users who
differ in it.** -/
theorem cache_transparent_iff (cs : List Check) :
    checkAll ⟨none⟩ cs = cs.map Check.uncached ↔
      ∀ c ∈ cs, ∀ d ∈ cs, ∀ (a b : Account) (resource action : Str),
        c.asks = some (a, resource, action) → d.asks = some (b, resource, action) →
        a.holds resource action = b.holds resource action := by
  have hcache : checkAll ⟨none⟩ cs = Memo.askAll Check.key Check.uncached (fun _ => none) cs :=
    checkAll_eq_askAll ⟨none⟩ cs
  rw [hcache, Memo.askAll_eq_map_iff]
  refine ⟨?_, ?_⟩
  · intro h c hc d hd a b resource action hca hdb
    have hck : c.key = some (resource, action) := by simp [Check.key, hca]
    have hdk : d.key = some (resource, action) := by simp [Check.key, hdb]
    rw [← uncached_of_asks hca, ← uncached_of_asks hdb]
    exact h c hc d hd (resource, action) hck hdk
  · rintro h c hc d hd ⟨resource, action⟩ hck hdk
    obtain ⟨⟨a, _, _⟩, hca, heq⟩ := Option.map_eq_some_iff.mp hck
    obtain ⟨rfl, rfl⟩ := Prod.mk.inj heq
    obtain ⟨⟨b, _, _⟩, hdb, heq⟩ := Option.map_eq_some_iff.mp hdk
    obtain ⟨rfl, rfl⟩ := Prod.mk.inj heq
    rw [uncached_of_asks hca, uncached_of_asks hdb]
    exact h c hc d hd a b _ _ hca hdb

/-- A user who may read accounts. -/
def reader : Account := ⟨true, [⟨false, [⟨.account, .read⟩]⟩]⟩

/-- A user without a role. -/
def newcomer : Account := ⟨true, []⟩

/-- The reader's answer is given to the newcomer. -/
theorem cache_serves_other_user :
    ¬ ∀ cs : List Check, checkAll ⟨none⟩ cs = cs.map Check.uncached := by
  intro halways
  have hchecks := halways
    [.call (some (.account reader)) Resource.account.value Action.read.value,
      .call (some (.account newcomer)) Resource.account.value Action.read.value]
  revert hchecks
  decide

end Rbac

end DjangoBoilerplate
