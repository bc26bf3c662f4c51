import DjangoBoilerplate.ApiKeyErrors
import DjangoBoilerplate.ApiKeyLifecycle
import DjangoBoilerplate.Permissions

/-!
# The API-key endpoints

`APIKeyDeleteView` and `APIKeyRevokeView` (`apps/accounts/views.py`) with what stands in front of
them: `CompositeAuthentication` (`apps/core/auth/composite.py`) over the providers of
`apps/accounts/auth_providers.py`, `HasResourcePermission` (`apps/core/permissions.py`), and the
throttles. Requests are served by any number of workers. Between the three steps of one request
(who is it, may they, do it) others create keys, change roles, deactivate accounts and revoke the
very key that the request came with.

Whatever the interleaving, a key is deleted or revoked only for a principal whose credentials were
good when the request was authenticated and whose roles allowed it when it was authorised
(`key_changes_authorized`). Edits of the rows outside these endpoints are left to `ApiKeyWriters`.

The verdict of `JWTAuthentication` on the `Authorization` header is part of the request, and the
throttles refuse as they like: both are library code.
-/

namespace DjangoBoilerplate

namespace ApiKey

namespace Endpoints

/-! ## Requests -/

/-- The two views. -/
inductive Endpoint : Type where
  /-- `DELETE /api/accounts/api-keys/<pk>/` -/
  | delete
  /-- `POST /api/accounts/api-keys/<pk>/revoke/` -/
  | revoke
  deriving DecidableEq

/-- `self.action`, as `initial` sets it. -/
def Endpoint.action : Endpoint → Rbac.Action
  | .delete => .delete
  | .revoke => .update

/-- What the stack reads of a request. -/
structure Request : Type where
  /-- the view it is routed to -/
  endpoint : Endpoint
  /-- `<int:pk>` -/
  pk : ℕ
  /-- `HTTP_X_API_KEY` -/
  apiKey : Option Str
  /-- the bearer token: none, one that is refused, or that of a user -/
  bearer : Option (Option ℕ)
  deriving DecidableEq

/-- The response: its status, and the message where the view writes it. -/
inductive Reply : Type where
  /-- 200, "API key deleted." -/
  | deleted
  /-- 200, "API key revoked." -/
  | revoked
  /-- 200, "API key already revoked." -/
  | alreadyRevoked
  /-- 404, "API key not found." -/
  | notFound
  /-- 401, with a `WWW-Authenticate` header -/
  | unauthorized
  /-- 403 -/
  | forbidden
  /-- 429 -/
  | throttled
  /-- 500, "An unexpected error occurred." -/
  | serverError
  deriving DecidableEq

/-- `SuccessResponse`. -/
def Reply.success : Reply → Bool
  | .deleted | .revoked | .alreadyRevoked => true
  | _ => false

/-! ## Authentication -/

/-- The registered providers. -/
inductive Provider : Type where
  /-- `JWTProvider` -/
  | jwt
  /-- `APIKeyProvider` -/
  | apiKey
  /-- `GoogleOAuthProvider` -/
  | oauthGoogle
  deriving DecidableEq

/-- `provider.authenticate(request)`: the database it leaves, and the user. -/
def Provider.authenticate (db : Db) (request : Request) (now : ℕ) :
    Provider → Db × Except AuthError (Option ℕ)
  | .jwt =>
    match request.bearer with
    | none => (db, .ok none)
    | some none => (db, .error (.failed "Given token not valid for any token type"))
    | some (some user) =>
      if db.users user then (db, .ok (some user)) else (db, .error (.failed "User is inactive"))
  | .apiKey =>
    match ApiKey.authenticate db request.apiKey with
    | .ok (some (user, key)) => (stampUsed db key.pk now, .ok (some user))
    | .ok none => (db, .ok none)
    | .error e => (db, .error e)
  | .oauthGoogle => (db, .ok none)

/-- `provider.authenticate_header(request)`, where the provider has it. -/
def Provider.authenticateHeader : Provider → Option String
  | .jwt => some "Bearer realm=\"api\""
  | .apiKey => some "X-API-Key"
  | .oauthGoogle => none

/-- `CompositeAuthentication.authenticate(request)` over the request's chain of providers. -/
def authenticate (db : Db) (request : Request) (now : ℕ) :
    List Provider → Db × Except AuthError (Option ℕ)
  | [] => (db, .ok none)
  | p :: chain =>
    match p.authenticate db request now with
    | (db', .ok none) => authenticate db' request now chain
    | result => result

/-- `CompositeAuthentication.authenticate_header(request)`. -/
def authenticateHeader (chain : List Provider) : Option String :=
  chain.findSome? Provider.authenticateHeader

/-- How the framework answers `AuthenticationFailed` and `NotAuthenticated`. -/
def challenge (chain : List Provider) : Reply :=
  if (authenticateHeader chain).isSome then .unauthorized else .forbidden

/-! ## The stack -/

/-- How far a request has come. -/
inductive Phase : Type where
  /-- nobody has looked at it -/
  | arrived
  /-- authenticated, with `request._composite_auth_providers` and `request.user` -/
  | identified (chain : List Provider) (user : Option ℕ)
  /-- through `HasResourcePermission` -/
  | admitted (user : ℕ)
  /-- answered -/
  | answered (reply : Reply)
  deriving DecidableEq

/-- The service. -/
structure Site : Type where
  /-- the keys and the accounts -/
  db : Db
  /-- the roles of the users -/
  roles : ℕ → List Rbac.Role
  /-- the requests, each with its phase -/
  requests : ℕ → Option (Request × Phase)

/-- The row of a user. -/
def Site.account (s : Site) (user : ℕ) : Rbac.Account := ⟨s.db.users user, s.roles user⟩

/-- `HasResourcePermission.has_permission` of a view, for a user. -/
def Site.hasPermission (s : Site) (user : ℕ) (e : Endpoint) : Bool :=
  ((Rbac.Check.view (some (.account (s.account user))) (some Rbac.Resource.apiKey.value)
    (some e.action.value)).on ⟨none⟩).1

/-- The request goes on. -/
def Site.goto (s : Site) (i : ℕ) (request : Request) (phase : Phase) : Site :=
  { s with requests := Function.update s.requests i (some (request, phase)) }

/-- `APIKeyDeleteView.delete(request, pk)`. -/
def deleteView (clean : Row → Bool) (db : Db) (pk user now : ℕ) : Db × Reply :=
  match ApiKey.delete clean db pk (some user) now with
  | some (db', true) => (db', .deleted)
  | some (db', false) => (db', .notFound)
  | none => (db, .serverError)

/-- `APIKeyRevokeView.post(request, pk)`. -/
def revokeView (clean : Row → Bool) (db : Db) (pk user now : ℕ) : Db × Reply :=
  match ApiKey.revoke clean db pk user now with
  | some (db', revokedNow, alreadyRevoked) =>
    if !revokedNow && !alreadyRevoked then (db', .notFound)
    else if alreadyRevoked then (db', .alreadyRevoked)
    else (db', .revoked)
  | none => (db, .serverError)

/-- The handler of the request. -/
def Endpoint.view : Endpoint → (Row → Bool) → Db → ℕ → ℕ → ℕ → Db × Reply
  | .delete => deleteView
  | .revoke => revokeView

/-- What happens next. -/
inductive Label : Type where
  /-- a request comes in -/
  | arrive (i : ℕ) (request : Request)
  /-- `perform_authentication`, with the enabled providers, at a time -/
  | authenticate (i : ℕ) (chain : List Provider) (now : ℕ)
  /-- `check_permissions` -/
  | authorize (i : ℕ)
  /-- `check_throttles` refuses the request -/
  | throttle (i : ℕ)
  /-- the handler runs, at a time -/
  | serve (i now : ℕ)
  /-- `APIKey.create_key` -/
  | create (user : ℕ) (name : Str) (createdBy : Option ℕ) (gen : ℕ → Str) (now : ℕ)
  /-- an account is activated or deactivated -/
  | setActive (user : ℕ) (active : Bool)
  /-- the roles of a user, or the permissions of these, change -/
  | setRoles (user : ℕ) (roles : List Rbac.Role)
  /-- an `apikey_used_<pk>` cache entry times out -/
  | debounceExpires (pk : ℕ)

/-- One step. -/
def step (clean : Row → Bool) (s : Site) : Label → Option Site
  | .arrive i request =>
    if (s.requests i).isSome then none else some (s.goto i request .arrived)
  | .authenticate i chain now =>
    match s.requests i with
    | some (request, .arrived) =>
      match Endpoints.authenticate s.db request now chain with
      | (db, .ok user) => some ({ s with db := db }.goto i request (.identified chain user))
      | (db, .error (.failed _)) =>
        some ({ s with db := db }.goto i request (.answered (challenge chain)))
      | (db, .error .typeError) => some ({ s with db := db }.goto i request (.answered .serverError))
    | _ => none
  | .authorize i =>
    match s.requests i with
    -- `AnonymousUser` has no permission, and is asked to authenticate
    | some (request, .identified chain none) =>
      some (s.goto i request (.answered (challenge chain)))
    | some (request, .identified _ (some user)) =>
      if s.hasPermission user request.endpoint then some (s.goto i request (.admitted user))
      else some (s.goto i request (.answered .forbidden))
    | _ => none
  | .throttle i =>
    match s.requests i with
    | some (request, .admitted _) => some (s.goto i request (.answered .throttled))
    | _ => none
  | .serve i now =>
    match s.requests i with
    | some (request, .admitted user) =>
      let (db, reply) := request.endpoint.view clean s.db request.pk user now
      some ({ s with db := db }.goto i request (.answered reply))
    | _ => none
  | .create user name createdBy gen now =>
    some { s with db := (exec clean s.db (.create user name createdBy gen now)).1 }
  | .setActive user active => some { s with db := (exec clean s.db (.setActive user active)).1 }
  | .setRoles user roles => some { s with roles := Function.update s.roles user roles }
  | .debounceExpires pk => some { s with db := (exec clean s.db (.debounceExpires pk)).1 }

/-- The service as a machine. -/
def machine (clean : Row → Bool) : Machine Site Label where
  step := step clean

/-! ## What a step can do -/

/-- The credentials of the request are good for a user. -/
inductive Vouched (db : Db) (request : Request) (user : ℕ) : Prop where
  /-- a token of an active user, -/
  | token (htoken : request.bearer = some (some user)) (hactive : db.users user = true)
  /-- or the secret of a live key of theirs -/
  | key (key : Str) (r : Row) (hkey : request.apiKey = some key) (hadmits : Admits db key r)
      (howner : r.user = user)

/-- A role of the user allows what the view does, or allows everything. -/
def Site.Allows (s : Site) (user : ℕ) (e : Endpoint) : Prop :=
  ∃ role ∈ s.roles user, role.isSuperuserRole = true ∨ ⟨.apiKey, e.action⟩ ∈ role.permissions

/-- Only `last_used_at` of some keys has changed. -/
def Stamped (db db' : Db) : Prop :=
  db'.nextPk = db.nextPk ∧ ∃ f : Row → Row,
    db'.keys = db.keys.map f ∧ ∀ r, f r = { r with lastUsedAt := (f r).lastUsedAt }

theorem Stamped.of_keys {db db' : Db} (hnext : db'.nextPk = db.nextPk)
    (hkeys : db'.keys = db.keys) : Stamped db db' :=
  ⟨hnext, id, by rw [hkeys, List.map_id], fun _ => rfl⟩

theorem Stamped.refl (db : Db) : Stamped db db := .of_keys rfl rfl

theorem stamped_stampUsed (db : Db) (pk now : ℕ) : Stamped db (stampUsed db pk now) := by
  unfold stampUsed
  split
  · exact .refl db
  · refine ⟨rfl, fun r => if r.pk = pk then { r with lastUsedAt := some now } else r, rfl, ?_⟩
    intro r
    dsimp only
    split <;> rfl

/-- A provider changes nothing if it sees no credentials, and its users are vouched for. -/
theorem Provider.authenticate_spec (p : Provider) (db : Db) (request : Request) (now : ℕ) :
    ((p.authenticate db request now).2 = .ok none → (p.authenticate db request now).1 = db) ∧
      Stamped db (p.authenticate db request now).1 ∧
      ∀ user, (p.authenticate db request now).2 = .ok (some user) → Vouched db request user := by
  cases p with
  | jwt =>
    simp only [Provider.authenticate]
    rcases hbearer : request.bearer with _ | _ | user
    · exact ⟨fun _ => rfl, .refl db, by simp⟩
    · exact ⟨fun _ => rfl, .refl db, by simp⟩
    · by_cases hactive : db.users user = true
      · simp only [if_pos hactive]
        refine ⟨fun _ => trivial, .refl db, ?_⟩
        rintro _ ⟨⟩
        exact .token hbearer hactive
      · simp only [if_neg hactive]
        exact ⟨fun _ => trivial, .refl db, by simp⟩
  | apiKey =>
    simp only [Provider.authenticate]
    rcases hauth : ApiKey.authenticate db request.apiKey with e | _ | ⟨user, r⟩
    · exact ⟨fun _ => rfl, .refl db, by simp⟩
    · exact ⟨fun _ => rfl, .refl db, by simp⟩
    · refine ⟨by simp, stamped_stampUsed db r.pk now, ?_⟩
      rintro _ ⟨⟩
      rcases hkey : request.apiKey with _ | key
      · simp [hkey, ApiKey.authenticate] at hauth
      · rw [hkey] at hauth
        obtain ⟨rfl, hadmits, -⟩ := admits_of_pair hauth
        exact .key key r hkey hadmits rfl
  | oauthGoogle => exact ⟨fun _ => rfl, .refl db, by simp [Provider.authenticate]⟩

/-- The chain answers what the first of its providers with an answer does. -/
theorem authenticate_spec (db : Db) (request : Request) (now : ℕ) (chain : List Provider) :
    Stamped db (authenticate db request now chain).1 ∧
      ∀ user, (authenticate db request now chain).2 = .ok (some user) →
        Vouched db request user := by
  induction chain with
  | nil => exact ⟨.refl db, by simp [authenticate]⟩
  | cons p chain ih =>
    obtain ⟨hsame, hstamped, hvouched⟩ := p.authenticate_spec db request now
    simp only [authenticate]
    split
    · next db' hp =>
      rw [hp] at hsame
      obtain rfl : db' = db := hsame rfl
      exact ih
    · exact ⟨hstamped, hvouched⟩

/-- A permission row is looked up by the values of its resource and its action. -/
theorem permission_values_iff {p : Rbac.Permission} {e : Endpoint} :
    (p.resource.value == Rbac.Resource.apiKey.value && p.action.value == e.action.value) = true ↔
      p = ⟨.apiKey, e.action⟩ := by
  obtain ⟨resource, action⟩ := p
  cases resource <;> cases action <;> cases e <;> decide

/-- `HasResourcePermission` looks for a role that allows it. -/
theorem hasPermission_iff {s : Site} {user : ℕ} {e : Endpoint} :
    s.hasPermission user e = true ↔ s.Allows user e := by
  have heq : s.hasPermission user e =
      ((s.account user).hasSuperuserRole ||
        (s.account user).holds Rbac.Resource.apiKey.value e.action.value) := by
    have haction : Rbac.truthy (some e.action.value) = some e.action.value := by
      cases e <;> rfl
    have hresource : Rbac.truthy (some Rbac.Resource.apiKey.value) =
        some Rbac.Resource.apiKey.value := rfl
    simp only [Site.hasPermission, Rbac.Check.on, haction, hresource, Rbac.userHasPermissionOn]
    rcases (s.account user).hasSuperuserRole with _ | _ <;> rfl
  simp only [heq, Bool.or_eq_true, Rbac.Account.hasSuperuserRole, Rbac.Account.holds,
    List.any_eq_true, permission_values_iff, Site.Allows, Site.account]
  refine ⟨?_, ?_⟩
  · rintro (⟨role, hrole, hsuper⟩ | ⟨role, hrole, p, hp, rfl⟩)
    · exact ⟨role, hrole, .inl hsuper⟩
    · exact ⟨role, hrole, .inr hp⟩
  · rintro ⟨role, hrole, hsuper | hp⟩
    · exact .inl ⟨role, hrole, hsuper⟩
    · exact .inr ⟨role, hrole, _, hp, rfl⟩

/-- The outcomes of the two handlers. -/
inductive Served (db : Db) (pk user now : ℕ) : Endpoint → Db → Reply → Prop where
  /-- an active key is deleted -/
  | deleted {r : Row} (hr : activeByPk db.keys pk = some r) :
    Served db pk user now .delete
      { db with keys := updateRow db.keys pk (deleteFields (some user) now) } .deleted
  /-- an active key is revoked for the first time -/
  | revoked {r : Row} (hr : activeByPk db.keys pk = some r) (hfresh : r.revokedAt = none) :
    Served db pk user now .revoke
      { db with keys := updateRow db.keys pk (revokeFields user now) } .revoked
  /-- an active key has been revoked before -/
  | alreadyRevoked {r : Row} (hr : activeByPk db.keys pk = some r)
      (hshut : r.revokedAt.isSome = true) :
    Served db pk user now .revoke db .alreadyRevoked
  /-- nothing happens -/
  | failed {e : Endpoint} {reply : Reply} (hreply : reply.success = false) :
    Served db pk user now e db reply

theorem served_view (clean : Row → Bool) (db : Db) (pk user now : ℕ) (e : Endpoint) :
    Served db pk user now e (e.view clean db pk user now).1 (e.view clean db pk user now).2 := by
  cases e with
  | delete =>
    simp only [Endpoint.view, deleteView, ApiKey.delete]
    rcases hr : activeByPk db.keys pk with _ | r
    · exact .failed rfl
    · by_cases hclean : clean (deleteFields (some user) now r) = true
      · simp only [hclean, if_true]
        exact .deleted hr
      · simp only [hclean]
        exact .failed rfl
  | revoke =>
    simp only [Endpoint.view, revokeView, ApiKey.revoke]
    rcases hr : activeByPk db.keys pk with _ | r
    · exact .failed rfl
    · rcases hrev : r.revokedAt with _ | time
      · by_cases hclean : clean (revokeFields user now r) = true
        · simp only [hrev, hclean, Option.isSome_none, Bool.false_eq_true, if_false, if_true]
          exact .revoked hr hrev
        · simp only [hrev, hclean, Option.isSome_none, Bool.false_eq_true, if_false]
          exact .failed rfl
      · simp only [hrev, Option.isSome_some, if_true]
        exact .alreadyRevoked hr (by rw [hrev]; rfl)

/-- A handler that fails leaves the database as it was. -/
theorem Served.eq_of_failure {db db' : Db} {pk user now : ℕ} {e : Endpoint} {reply : Reply}
    (h : Served db pk user now e db' reply) (hreply : reply.success = false) : db' = db := by
  cases h with
  | deleted hr => cases hreply
  | revoked hr hfresh => cases hreply
  | alreadyRevoked hr hshut => rfl
  | failed _ => rfl

/-- The effects of a step. -/
inductive Effect (s : Site) : Label → Site → Prop where
  /-- a new request -/
  | arrive {i : ℕ} {request : Request} (hnew : s.requests i = none) :
    Effect s (.arrive i request) (s.goto i request .arrived)
  /-- the chain has an answer, and its users are vouched for -/
  | identify {i now : ℕ} {request : Request} {chain : List Provider} {user : Option ℕ} {db : Db}
      (hi : s.requests i = some (request, .arrived)) (hdb : Stamped s.db db)
      (huser : ∀ u, user = some u → Vouched s.db request u) :
    Effect s (.authenticate i chain now)
      ({ s with db := db }.goto i request (.identified chain user))
  /-- the roles of the user allow it -/
  | permit {i user : ℕ} {request : Request} {chain : List Provider}
      (hi : s.requests i = some (request, .identified chain (some user)))
      (hallows : s.Allows user request.endpoint) :
    Effect s (.authorize i) (s.goto i request (.admitted user))
  /-- the request fails, on its way or in the handler -/
  | fail {l : Label} {i : ℕ} {request : Request} {phase : Phase} {db : Db} {reply : Reply}
      (hi : s.requests i = some (request, phase)) (hopen : ∀ reply, phase ≠ .answered reply)
      (hdb : Stamped s.db db) (hreply : reply.success = false) :
    Effect s l ({ s with db := db }.goto i request (.answered reply))
  /-- the handler succeeds -/
  | serve {i user now : ℕ} {request : Request} {db : Db} {reply : Reply}
      (hi : s.requests i = some (request, .admitted user))
      (hserved : Served s.db request.pk user now request.endpoint db reply)
      (hreply : reply.success = true) :
    Effect s (.serve i now) ({ s with db := db }.goto i request (.answered reply))
  /-- a new key, under an unused prefix -/
  | create {user : ℕ} {name : Str} {createdBy : Option ℕ} {gen : ℕ → Str} {now : ℕ} (raw : Str)
      (hfree : prefixTaken s.db.keys (raw.take 8) = false) :
    Effect s (.create user name createdBy gen now)
      { s with db := { s.db with
        keys := s.db.keys ++ [newRow s.db user name createdBy now raw]
        nextPk := s.db.nextPk + 1 } }
  /-- no request moves, and no key changes -/
  | other {l : Label} {t : Site} (hrequests : t.requests = s.requests) (hdb : Stamped s.db t.db) :
    Effect s l t

theorem challenge_failure (chain : List Provider) : (challenge chain).success = false := by
  unfold challenge
  split <;> rfl

theorem effect_create (clean : Row → Bool) (s : Site) (user : ℕ) (name : Str)
    (createdBy : Option ℕ) (gen : ℕ → Str) (now : ℕ) :
    Effect s (.create user name createdBy gen now)
      { s with db := (exec clean s.db (.create user name createdBy gen now)).1 } := by
  simp only [exec]
  split
  · next h =>
    obtain ⟨-, -, hfree, rfl⟩ := createAttempts_ok h
    exact .create _ hfree
  · exact .other rfl (.refl _)

/-- **Inversion**: every step has one of the listed effects. -/
theorem effect_of_step {clean : Row → Bool} {s t : Site} {l : Label}
    (h : step clean s l = some t) : Effect s l t := by
  cases l with
  | arrive i request =>
    simp only [step] at h
    split at h
    · cases h
    · next hnew =>
      cases h
      exact .arrive (by simpa using hnew)
  | authenticate i chain now =>
    simp only [step] at h
    split at h
    · next request hi =>
      obtain ⟨hdb, hvouched⟩ := authenticate_spec s.db request now chain
      split at h
      · next db user hauth =>
        rw [hauth] at hdb hvouched
        cases h
        refine .identify hi hdb ?_
        rintro u rfl
        exact hvouched u rfl
      · next db _ hauth =>
        rw [hauth] at hdb
        cases h
        exact .fail hi (by simp) hdb (challenge_failure chain)
      · next db hauth =>
        rw [hauth] at hdb
        cases h
        exact .fail hi (by simp) hdb rfl
    · cases h
  | authorize i =>
    simp only [step] at h
    split at h
    · next request chain hi =>
      cases h
      exact .fail hi (by simp) (.refl _) (challenge_failure chain)
    · next request chain user hi =>
      split at h
      · next hperm =>
        cases h
        exact .permit hi (hasPermission_iff.mp hperm)
      · cases h
        exact .fail hi (by simp) (.refl _) rfl
    · cases h
  | throttle i =>
    simp only [step] at h
    split at h
    · next request user hi =>
      cases h
      exact .fail hi (by simp) (.refl _) rfl
    · cases h
  | serve i now =>
    simp only [step] at h
    split at h
    · next request user hi =>
      cases h
      have hserved := served_view clean s.db request.pk user now request.endpoint
      rcases hreply : (request.endpoint.view clean s.db request.pk user now).2.success with _ | _
      · rw [hserved.eq_of_failure hreply]
        exact .fail hi (by simp) (.refl _) hreply
      · exact .serve hi hserved hreply
    · cases h
  | create user name createdBy gen now =>
    cases h
    exact effect_create clean s user name createdBy gen now
  | setActive user active =>
    cases h
    exact .other rfl (.of_keys rfl rfl)
  | setRoles user roles =>
    cases h
    exact .other rfl (.refl _)
  | debounceExpires pk =>
    cases h
    exact .other rfl (.of_keys rfl rfl)

/-! ## Who changes the keys -/

variable {clean : Row → Bool} {s₀ : Site}

/-- The request is authenticated by this chain of providers, and its credentials are good. -/
def Vouches (i : ℕ) (request : Request) (chain : List Provider) (user : ℕ) (m : Site)
    (l : Label) : Prop :=
  (∃ now, l = .authenticate i chain now) ∧ m.requests i = some (request, .arrived) ∧
    Vouched m.db request user

/-- In the course of the run the request was authenticated as the user, and then authorised. -/
structure Authorized (clean : Row → Bool) (s₀ : Site) (ls : List Label) (i : ℕ) (request : Request)
    (user : ℕ) : Prop where
  /-- its credentials were good in the step that looked at them, -/
  vouched : ∃ chain, (machine clean).Takes s₀ ls (Vouches i request chain user)
  /-- and the roles of the user allowed it in the step that looked at these -/
  allowed : (machine clean).Takes s₀ ls fun m l => l = .authorize i ∧
    (∃ chain, m.requests i = some (request, .identified chain (some user))) ∧
      m.Allows user request.endpoint

/-- What the phase of a request says about the run. -/
def Recorded (clean : Row → Bool) (s₀ : Site) (ls : List Label) (i : ℕ) (request : Request) :
    Phase → Prop
  | .identified chain (some user) => (machine clean).Takes s₀ ls (Vouches i request chain user)
  | .admitted user => Authorized clean s₀ ls i request user
  | _ => True

theorem Recorded.snoc {ls : List Label} {i : ℕ} {request : Request} {phase : Phase}
    (h : Recorded clean s₀ ls i request phase) (l : Label) :
    Recorded clean s₀ (ls ++ [l]) i request phase := by
  match phase, h with
  | .arrived, _ => trivial
  | .identified _ none, _ => trivial
  | .identified _ (some _), h => exact Machine.Takes.snoc h l
  | .admitted _, h =>
    obtain ⟨chain, hvouched⟩ := h.vouched
    exact ⟨⟨chain, hvouched.snoc l⟩, h.allowed.snoc l⟩
  | .answered _, _ => trivial

/-- The phases of all requests are right about the run. -/
def History (clean : Row → Bool) (s₀ : Site) (ls : List Label) (s : Site) : Prop :=
  ∀ i request phase, s.requests i = some (request, phase) → Recorded clean s₀ ls i request phase

/-- A step that moves one request, and says the truth about it. -/
theorem History.goto {ls : List Label} {s : Site} (hs : History clean s₀ ls s) (l : Label) {db : Db}
    {i : ℕ} {request : Request} {phase : Phase}
    (hphase : Recorded clean s₀ (ls ++ [l]) i request phase) :
    History clean s₀ (ls ++ [l]) ({ s with db := db }.goto i request phase) := by
  intro j request' phase' hj
  rcases update_eq_some hj with ⟨rfl, heq⟩ | ⟨-, hj⟩
  · cases heq
    exact hphase
  · exact (hs j request' phase' hj).snoc l

/-- **Step lemma.** -/
theorem History.step {ls : List Label} {s t : Site} {l : Label}
    (hrun : (machine clean).run s₀ ls = some s) (hs : History clean s₀ ls s)
    (heff : Effect s l t) : History clean s₀ (ls ++ [l]) t := by
  cases heff with
  | arrive hnew => exact hs.goto _ trivial
  | @identify i now request chain user db hi hdb huser =>
    refine hs.goto _ ?_
    rcases user with _ | user
    · trivial
    · exact Machine.takes_of_run hrun ⟨⟨now, rfl⟩, hi, huser user rfl⟩
  | permit hi hallows =>
    refine hs.goto _ ⟨⟨_, (hs _ _ _ hi).snoc _⟩, ?_⟩
    exact Machine.takes_of_run hrun ⟨rfl, ⟨_, hi⟩, hallows⟩
  | fail hi hopen hdb hreply => exact hs.goto _ trivial
  | serve hi hserved hreply => exact hs.goto _ trivial
  | create raw hfree =>
    intro i request phase hi
    exact (hs i request phase hi).snoc _
  | other hrequests hdb =>
    intro i request phase hi
    rw [hrequests] at hi
    exact (hs i request phase hi).snoc _

theorem history_of_run (hs₀ : ∀ i, s₀.requests i = none) {ls : List Label} {s : Site}
    (hrun : (machine clean).run s₀ ls = some s) : History clean s₀ ls s := by
  refine Machine.run_history (J := History clean s₀) ?_ ?_ hrun
  · intro i request phase hi
    rw [hs₀ i] at hi
    cases hi
  · intro ls m l t hm hJ hl
    exact hJ.step hm (effect_of_step hl)

/-- What a step of a run does to the keys. -/
inductive KeyChange (clean : Row → Bool) (s₀ : Site) (ls : List Label) (s : Site) :
    Label → Site → Prop where
  /-- nothing but `last_used_at` changes -/
  | none {l : Label} {t : Site} (hdb : Stamped s.db t.db) : KeyChange clean s₀ ls s l t
  /-- a key is created -/
  | created {user : ℕ} {name : Str} {createdBy : Option ℕ} {gen : ℕ → Str} {now : ℕ} {t : Site}
      (raw : Str) (hkeys : t.db.keys = s.db.keys ++ [newRow s.db user name createdBy now raw]) :
    KeyChange clean s₀ ls s (.create user name createdBy gen now) t
  /-- a key is deleted for an authorised user, who is told so -/
  | deleted {i user now : ℕ} {request : Request} {t : Site} (hendpoint : request.endpoint = .delete)
      (hauthorized : Authorized clean s₀ ls i request user)
      (hkeys : t.db.keys = updateRow s.db.keys request.pk (deleteFields (some user) now))
      (hreply : t.requests i = some (request, .answered .deleted)) :
    KeyChange clean s₀ ls s (.serve i now) t
  /-- a key is revoked for an authorised user, who is told so -/
  | revoked {i user now : ℕ} {request : Request} {t : Site} (hendpoint : request.endpoint = .revoke)
      (hauthorized : Authorized clean s₀ ls i request user)
      (hkeys : t.db.keys = updateRow s.db.keys request.pk (revokeFields user now))
      (hreply : t.requests i = some (request, .answered .revoked)) :
    KeyChange clean s₀ ls s (.serve i now) t

/-- **In every run, every step that changes more of the keys than `last_used_at` creates a key, or
serves a request that was authenticated with good credentials and authorised by the roles of its
user.** -/
theorem key_changes_authorized (clean : Row → Bool) (s₀ : Site) (hs₀ : ∀ i, s₀.requests i = none)
    (ls : List Label) (l : Label) (s t : Site) (hrun : (machine clean).run s₀ ls = some s)
    (hstep : (machine clean).step s l = some t) : KeyChange clean s₀ ls s l t := by
  have hhistory := history_of_run hs₀ hrun
  cases effect_of_step hstep with
  | arrive hnew => exact .none (.refl _)
  | identify hi hdb huser => exact .none hdb
  | permit hi hallows => exact .none (.refl _)
  | fail hi hopen hdb hreply => exact .none hdb
  | @serve i user now request db reply hi hserved hreply =>
    have hauthorized : Authorized clean s₀ ls i request user := hhistory i request _ hi
    rcases hendpoint : request.endpoint with _ | _ <;> rw [hendpoint] at hserved <;> cases hserved
    · exact .deleted hendpoint hauthorized rfl (Function.update_self ..)
    · next hfailed => exact .none (.refl _)
    · exact .revoked hendpoint hauthorized rfl (Function.update_self ..)
    · exact .none (.refl _)
    · exact .none (.refl _)
  | create raw hfree => exact .created raw rfl
  | other hrequests hdb => exact .none hdb

/-- The key of user 1. -/
def ciKey : Row where
  pk := 0
  user := 1
  name := "ci".toList
  keyPrefix := "abcdefgh".toList
  secret := "abcdefghijkl".toList
  lastUsedAt := none
  revokedAt := none
  isActive := true
  createdBy := none
  updatedBy := none
  createdAt := 0
  updatedAt := 0

/-- A service with one key; user 1 may revoke and delete keys. -/
def oneKeySite : Site where
  db := ⟨[ciKey], fun _ => true, 1, fun _ => false⟩
  roles := Function.update (fun _ => []) 1 [⟨false, [⟨.apiKey, .update⟩, ⟨.apiKey, .delete⟩]⟩]
  requests := fun _ => none

/-- The owner asks, with the key itself, to revoke it. -/
def revokeItself : Request := ⟨.revoke, 0, some "abcdefghijkl".toList, none⟩

/-- The request is let in, and before it is served the roles of the user are taken away. -/
def roleTakenAway : List Label :=
  [.arrive 0 revokeItself, .authenticate 0 [.jwt, .apiKey] 5, .authorize 0, .setRoles 1 []]

/-- The key is revoked all the same: the user was allowed to when it was checked. -/
theorem key_revoked_after_role_lost : ∃ s t,
    (machine fun _ => true).run oneKeySite roleTakenAway = some s ∧
    (machine fun _ => true).step s (.serve 0 6) = some t ∧
    KeyChange (fun _ => true) oneKeySite roleTakenAway s (.serve 0 6) t ∧
    t.db.keys = [{ ciKey with
      lastUsedAt := some 5, revokedAt := some 6, updatedAt := 6, updatedBy := some 1 }] := by
  refine ⟨_, _, rfl, rfl, ?_, rfl⟩
  exact key_changes_authorized (fun _ => true) oneKeySite (fun _ => rfl) roleTakenAway (.serve 0 6)
    _ _ rfl rfl

end Endpoints

end ApiKey

end DjangoBoilerplate
