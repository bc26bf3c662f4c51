import DjangoBoilerplate.Json
import DjangoBoilerplate.Permissions

/-!
# The two permission engines

`RBACBackend` (`apps/accounts/backends.py`) answers Django's `has_perm` for permission
strings such as `accounts.view_user`. It looks the model up in the registry of
`apps/core/rbac_registry.py` and then asks the role graph itself, where the API asks
`user_has_permission`.

The answers differ in two respects (`hasPerm_eq`): the backend refuses an inactive user,
and, but for a superuser role, it refuses a string with a second dot.
-/

namespace DjangoBoilerplate

namespace Rbac

variable (u : Casing)

/-! ## The registry -/

/-- `_RESOURCE_FOR_MODEL`. -/
abbrev Registry : Type := List (Str × Str)

/-- `register_resource(model_dotted_name, resource)`; `none` is the `ValueError` of a key
that is mapped to another resource. -/
def registerResource (d : Registry) (modelDottedName resource : Str) : Option Registry :=
  let key := u.lower modelDottedName
  match getItem d key with
  | none => some (setItem d key resource)
  | some existing => if existing ≠ resource then none else some d

/-- The registry after some calls. One that raises leaves it as it was. -/
def registered (calls : List (Str × Str)) : Registry :=
  calls.foldl (fun d c => (registerResource u d c.1 c.2).getD d) []

/-- `resource_for(app_label, model_name)`. -/
def resourceFor (d : Registry) (appLabel modelName : Str) : Option Str :=
  getItem d (u.lower (appLabel ++ '.' :: modelName))

/-- `app_resources(app_label)`. -/
def appResources (d : Registry) (appLabel : Str) : List Str :=
  (d.filter fun e => (u.lower (appLabel ++ ['.'])).isPrefixOf e.1).map Prod.snd

/-! ## `RBACBackend` -/

/-- `PERM_ACTION_MAP`. -/
def permActionMap : List (Str × Action) :=
  [("view".toList, .read), ("add".toList, .create), ("change".toList, .update),
    ("delete".toList, .delete)]

/-- The parts of a permission string: the app label, the action and the model name. `none`
is the `ValueError` of a string that is not of this form. -/
def parsePerm (perm : Str) : Option (Str × Str × Str) :=
  match perm.split '.' with
  | [appLabel, codename] => (codename.splitOnce '_').map fun parts => (appLabel, parts)
  | _ => none

/-- `is_active`. -/
def User.isActive : User → Bool
  | .anonymous => false
  | .account a => a.isActive

/-- `getattr(user, "has_superuser_role", False)`. -/
def User.hasSuperuserRole : User → Bool
  | .anonymous => false
  | .account a => a.hasSuperuserRole

/-- `user.roles.filter(permissions__resource=..., permissions__action=...).exists()`. -/
def User.holds (user : User) (resource action : Str) : Bool :=
  match user with
  | .anonymous => false
  | .account a => a.holds resource action

/-- `user.roles.filter(permissions__resource__in=...).exists()`. -/
def User.holdsAny (user : User) (resources : List Str) : Bool :=
  match user with
  | .anonymous => false
  | .account a =>
    a.roles.any fun role => role.permissions.any fun p => resources.contains p.resource.value

/-- `RBACBackend.has_perm(user, perm)`. -/
def hasPerm (d : Registry) (user : User) (perm : Str) : Bool :=
  if !user.isActive then false
  else if user.hasSuperuserRole then true
  else
    match parsePerm perm with
    | none => false
    | some (appLabel, actionName, modelName) =>
      match getItem permActionMap actionName, truthy (resourceFor u d appLabel modelName) with
      | some action, some resource => user.holds resource action.value
      | _, _ => false

/-- `RBACBackend.has_module_perms(user, app_label)`. -/
def hasModulePerms (d : Registry) (user : User) (appLabel : Str) : Bool :=
  if !user.isActive then false
  else if user.hasSuperuserRole then true
  else
    let resources := appResources u d appLabel
    if resources.isEmpty then false else user.holdsAny resources

/-- `"app.action_model"`. -/
def permString (appLabel actionName modelName : Str) : Str :=
  appLabel ++ '.' :: (actionName ++ '_' :: modelName)

/-! ## Parsing -/

/-- The names of the actions have neither a dot nor an underscore. -/
theorem actionName_plain {actionName : Str} {action : Action}
    (h : getItem permActionMap actionName = some action) :
    '.' ∉ actionName ∧ '_' ∉ actionName := by
  have hmem := mem_of_getItem h
  simp only [permActionMap, List.mem_cons, Prod.mk.injEq, List.not_mem_nil, or_false] at hmem
  rcases hmem with ⟨rfl, -⟩ | ⟨rfl, -⟩ | ⟨rfl, -⟩ | ⟨rfl, -⟩ <;> decide

variable {appLabel actionName modelName : Str} {action : Action}

theorem parsePerm_permString (haction : getItem permActionMap actionName = some action)
    (happ : '.' ∉ appLabel) (hmodel : '.' ∉ modelName) :
    parsePerm (permString appLabel actionName modelName) =
      some (appLabel, actionName, modelName) := by
  obtain ⟨hdot, hunderscore⟩ := actionName_plain haction
  have hcodename : '.' ∉ actionName ++ '_' :: modelName := by
    simp [hdot, hmodel]
  rw [parsePerm, permString, Str.split_append_cons happ, Str.split_of_not_mem hcodename]
  simp only [Str.splitOnce_append_cons hunderscore, Option.map_some]

/-- A second dot is one too many. -/
theorem parsePerm_of_dot (h : '.' ∈ appLabel ∨ '.' ∈ modelName) :
    parsePerm (permString appLabel actionName modelName) = none := by
  have hdot : '.' ∈ appLabel ∨ '.' ∈ actionName ++ '_' :: modelName := by
    rcases h with h | h
    · exact .inl h
    · exact .inr (List.mem_append_right _ (List.mem_cons_of_mem _ h))
  obtain ⟨x, y, z, parts, hparts⟩ := Str.exists_split_of_mem_mem hdot
  rw [parsePerm, permString, hparts]

/-! ## The engines compared -/

variable {u} {d : Registry} {user : User} {resource : Str}

/-- No permission is for the empty resource. -/
theorem holds_nil (user : User) (action : Str) : user.holds [] action = false := by
  cases user with
  | anonymous => rfl
  | account a =>
    have hvalue : ∀ r : Resource, (r.value == []) = false := by
      intro r
      cases r <;> rfl
    simp [User.holds, Account.holds, hvalue]

/-- `user_has_permission` in terms of the same questions. -/
theorem userHasPermission_eq (user : User) (resource action : Str) :
    userHasPermission (some user) resource action =
      (user.hasSuperuserRole || user.holds resource action) := by
  cases user with
  | anonymous => rfl
  | account a =>
    simp only [userHasPermission, User.hasSuperuserRole, User.holds]
    cases a.hasSuperuserRole <;> rfl

/-- Without a superuser role a string of the right form is answered by the role graph, -/
theorem hasPerm_of_parse (hactive : user.isActive = true) (hsuper : user.hasSuperuserRole = false)
    (haction : getItem permActionMap actionName = some action)
    (hresource : resourceFor u d appLabel modelName = some resource) {perm : Str}
    (hparse : parsePerm perm = some (appLabel, actionName, modelName)) :
    hasPerm u d user perm = user.holds resource action.value := by
  simp only [hasPerm, hactive, hsuper, hparse, haction, hresource]
  cases resource with
  | nil => simp [truthy, holds_nil]
  | cons c s => simp [truthy]

/-- and any other is refused. -/
theorem hasPerm_of_parse_none (hsuper : user.hasSuperuserRole = false) {perm : Str}
    (hparse : parsePerm perm = none) : hasPerm u d user perm = false := by
  simp [hasPerm, hsuper, hparse]

/-- **The backend agrees with `user_has_permission` about active users and strings with one
dot.** It refuses an inactive user, and a string with another dot unless the user has a
superuser role. -/
theorem hasPerm_eq (calls : List (Str × Str)) (user : User)
    (haction : getItem permActionMap actionName = some action)
    (hresource : resourceFor u (registered u calls) appLabel modelName = some resource) :
    hasPerm u (registered u calls) user (permString appLabel actionName modelName) =
      (userHasPermission (some user) resource action.value && user.isActive &&
        (user.hasSuperuserRole || !(appLabel.contains '.' || modelName.contains '.'))) := by
  rw [userHasPermission_eq]
  cases hactive : user.isActive with
  | false => simp [hasPerm, hactive]
  | true =>
    cases hsuper : user.hasSuperuserRole with
    | true => simp [hasPerm, hactive, hsuper]
    | false =>
      by_cases hdot : '.' ∈ appLabel ∨ '.' ∈ modelName
      · rw [hasPerm_of_parse_none hsuper (parsePerm_of_dot hdot)]
        rcases hdot with h | h <;> simp [h]
      · obtain ⟨happ, hmodel⟩ := not_or.mp hdot
        rw [hasPerm_of_parse hactive hsuper haction hresource
          (parsePerm_permString haction happ hmodel)]
        simp [happ, hmodel]

/-- The registration of `User`, as `AccountsConfig.ready()` makes it. -/
def userModel : List (Str × Str) := [("accounts.user".toList, Resource.account.value)]

/-- A reader whose account was deactivated. -/
def formerReader : Account := { reader with isActive := false }

/-- The two engines differ about a user who is not active. -/
theorem engines_differ_inactive :
    ¬ ∀ (u : Casing) (calls : List (Str × Str)) (user : User)
        (appLabel actionName modelName resource : Str) (action : Action),
      getItem permActionMap actionName = some action →
      resourceFor u (registered u calls) appLabel modelName = some resource →
      hasPerm u (registered u calls) user (permString appLabel actionName modelName) =
        userHasPermission (some user) resource action.value := by
  intro halways
  have hequal := halways Casing.basic userModel (.account formerReader) "accounts".toList
    "view".toList "user".toList Resource.account.value .read (by decide) (by decide)
  revert hequal
  decide

/-- About a user who is, they agree. -/
theorem engines_agree_reader :
    hasPerm Casing.basic (registered Casing.basic userModel) (.account reader)
        (permString "accounts".toList "view".toList "user".toList) = true ∧
      userHasPermission (some (.account reader)) Resource.account.value Action.read.value =
        true := by
  have haction : getItem permActionMap "view".toList = some .read := by decide
  have hresource : resourceFor Casing.basic (registered Casing.basic userModel)
      "accounts".toList "user".toList = some Resource.account.value := by decide
  have hperm := hasPerm_eq userModel (.account reader) haction hresource
  have hholds : userHasPermission (some (.account reader)) Resource.account.value
      Action.read.value = true := by decide
  rw [hholds] at hperm
  exact ⟨hperm, hholds⟩

end Rbac

end DjangoBoilerplate
