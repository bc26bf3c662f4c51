import DjangoBoilerplate.Text

/-!
# Users by their address

`UserManager.create_user` of `apps/accounts/managers.py` stores an address as Django's
`normalize_email` has it; `UserRepository.get_by_email` of `apps/accounts/repositories.py`, and
through it `pre_social_login` of `apps/accounts/adapters.py`, looks up the address it is given.
`found_iff` says which addresses a user can be found by, where `normalize_email` lower-cases the
domain and does nothing else.
-/

namespace DjangoBoilerplate

namespace EmailLookup

/-! ## The two sides -/

/-- A row of the user table. -/
structure User : Type where
  /-- the primary key -/
  pk : ℕ
  /-- `email`, unique -/
  email : Str
  /-- `username`, unique -/
  username : Str
  /-- `is_active` -/
  isActive : Bool
deriving DecidableEq

/-- How `create_user` raises. -/
inductive CreateError : Type where
  /-- the `ValueError` of an empty address -/
  | valueError : CreateError
  /-- the address or the name is taken -/
  | integrityError : CreateError
deriving DecidableEq

/-- An address with the part after the last `@` in lower case. -/
def lowerDomain (u : Casing) (email : Str) : Str :=
  match Str.rsplitOnce '@' email with
  | none => email
  | some (name, domain) => name ++ '@' :: u.lower domain

variable (normalizeEmail : Str → Str)

/-- `username or email`. -/
def usernameOr (username : Option Str) (email : Str) : Str :=
  if username.getD [] = [] then email else username.getD []

/-- `UserManager.create_user(email, username, **extra_fields)`: the user, and the table with it.
`seq` is the next key, and `normalizeEmail` Django's `normalize_email`. -/
def createUser (users : List User) (seq : ℕ) (email : Str) (username : Option Str)
    (isActive : Option Bool) : Except CreateError (User × List User) :=
  if email = [] then .error .valueError
  else
    let email := normalizeEmail email
    let username := usernameOr username email
    let user : User := ⟨seq, email, username, isActive.getD true⟩
    if users.any fun x => x.email == email || x.username == username then
      .error .integrityError
    else .ok (user, users ++ [user])

/-- `UserRepository.get_by_email(email)`. -/
def getByEmail (users : List User) (email : Str) : Option User :=
  users.find? fun x => x.email == email

/-- `pre_social_login(request, sociallogin)`: the user the social account is connected to, if
any. -/
def preSocialLogin (users : List User) (isExisting : Bool) (email : Option Str) : Option User :=
  if isExisting then none
  else if email.getD [] = [] then none
  else
    match getByEmail users (email.getD []) with
    | none => none
    | some existing => if existing.isActive then some existing else none

/-- The user is found by the address, and a new social account with the address is connected to
it, unless the user is inactive. -/
structure Found (users : List User) (user : User) (email : Str) : Prop where
  /-- by the repository -/
  lookup : getByEmail users email = some user
  /-- by the adapter -/
  linked : preSocialLogin users false (some email) = if user.isActive then some user else none

/-! ## When they meet -/

variable {normalizeEmail} {u : Casing}

/-- What a call that succeeds leaves. -/
theorem createUser_eq_ok {users users' : List User} {seq : ℕ} {email : Str}
    {username : Option Str} {isActive : Option Bool} {user : User}
    (h : createUser normalizeEmail users seq email username isActive = .ok (user, users')) :
    email ≠ [] ∧ user.email = normalizeEmail email ∧ users' = users ++ [user] ∧
      ∀ x ∈ users, x.email ≠ user.email := by
  rw [createUser] at h
  split at h
  · cases h
  · next hne =>
    simp only at h
    split at h
    · cases h
    · next hfree =>
      obtain ⟨rfl, rfl⟩ := Prod.mk.inj (Except.ok.inj h)
      refine ⟨hne, rfl, rfl, ?_⟩
      intro x hx heq
      refine hfree (List.any_eq_true.mpr ⟨x, hx, ?_⟩)
      simp only at heq
      simp [heq]

/-- An address stays as it is if its domain is in lower case. -/
theorem lowerDomain_eq_self_iff {email : Str} :
    lowerDomain u email = email ↔
      ∀ name domain, Str.rsplitOnce '@' email = some (name, domain) → u.lower domain = domain := by
  by_cases hat : '@' ∈ email
  · obtain ⟨name, domain, rfl, hdomain⟩ := Str.exists_rsplit_of_mem hat
    rw [lowerDomain, Str.rsplitOnce_append_cons name hdomain]
    simp
  · rw [lowerDomain, Str.rsplitOnce_of_not_mem hat]
    simp

/-- A user that is stored under the address is found by it. -/
theorem found_of_email_eq {users : List User} {user : User} {email : Str} (hne : email ≠ [])
    (hemail : user.email = email) (hfree : ∀ x ∈ users, x.email ≠ email) :
    Found (users ++ [user]) user email := by
  have hlookup : getByEmail (users ++ [user]) email = some user := by
    have hnone : users.find? (fun x => x.email == email) = none := by
      rw [List.find?_eq_none]
      intro x hx
      simpa using hfree x hx
    rw [getByEmail, List.find?_append, hnone]
    simp [hemail]
  refine ⟨hlookup, ?_⟩
  simp only [preSocialLogin, Bool.false_eq_true, if_false, Option.getD_some, hne, hlookup]

/-- **Users by their address.** The user that `create_user` makes for an address, of which
`normalize_email` lower-cases the domain, is found by it exactly if the part after the last `@`, if
there is one, is in lower case. -/
theorem found_iff {users users' : List User} {seq : ℕ} {email : Str} {username : Option Str}
    {isActive : Option Bool} {user : User}
    (hnormalize : normalizeEmail email = lowerDomain u email)
    (hcreate : createUser normalizeEmail users seq email username isActive =
      .ok (user, users')) :
    Found users' user email ↔
      ∀ name domain, Str.rsplitOnce '@' email = some (name, domain) → u.lower domain = domain := by
  obtain ⟨hne, hemail, rfl, hfree⟩ := createUser_eq_ok hcreate
  rw [hnormalize] at hemail
  rw [← lowerDomain_eq_self_iff]
  constructor
  · intro h
    have hmatch : user.email = email := by
      simpa using List.find?_some h.lookup
    rw [← hemail, hmatch]
  · intro hself
    rw [hself] at hemail
    exact found_of_email_eq hne hemail (hemail ▸ hfree)

/-- An address with a capital in its domain. -/
theorem capital_domain_not_found :
    ¬ ∀ (u : Casing) (normalizeEmail : Str → Str) (users users' : List User) (seq : ℕ)
        (email : Str) (username : Option Str) (isActive : Option Bool) (user : User),
        (∀ email, normalizeEmail email = lowerDomain u email) →
        createUser normalizeEmail users seq email username isActive = .ok (user, users') →
      Found users' user email := by
  intro halways
  have h := halways Casing.basic (lowerDomain Casing.basic) [] _ 1 "ann@Example.com".toList none
    none _ (fun _ => rfl) rfl
  have hlookup := h.lookup
  revert hlookup
  decide

/-- One with a capital in its name. -/
theorem capital_name_found :
    Found [⟨1, "Ann@example.com".toList, "ann".toList, true⟩]
      ⟨1, "Ann@example.com".toList, "ann".toList, true⟩ "Ann@example.com".toList := by
  have hcreate : createUser (lowerDomain Casing.basic) [] 1 "Ann@example.com".toList
      (some "ann".toList) none = .ok (⟨1, "Ann@example.com".toList, "ann".toList, true⟩,
        [⟨1, "Ann@example.com".toList, "ann".toList, true⟩]) := by
    decide
  refine (found_iff (u := Casing.basic) rfl hcreate).mpr ?_
  intro name domain h
  obtain ⟨rfl, rfl⟩ := Prod.mk.inj (Option.some.inj h)
  decide

end EmailLookup

end DjangoBoilerplate
