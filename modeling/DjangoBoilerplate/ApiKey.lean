import DjangoBoilerplate.Machine
import DjangoBoilerplate.Text

/-!
# API keys

The `APIKey` table and everything that touches it: `APIKey.create_key`
(`apps/accounts/models.py`), `APIKeyService.revoke` and the inherited soft
`delete` (`apps/accounts/services.py`, `apps/core/base/service.py`), and
`APIKeyAuthentication.authenticate` (`apps/accounts/authentication.py`).

Each operation is a function on the database. What `full_clean()` checks beyond
uniqueness is outside this model and enters as the predicate `clean`; the
encrypted `secret` column is modelled by its decrypted value. The soft delete
cascades to nothing: no model refers to `APIKey`.
-/

namespace DjangoBoilerplate

namespace ApiKey

/-- A row of the `APIKey` table. -/
structure Row : Type where
  /-- the primary key -/
  pk : ℕ
  /-- the owner, `user_id` -/
  user : ℕ
  /-- the label -/
  name : Str
  /-- `prefix`, unique -/
  keyPrefix : Str
  /-- `secret`, decrypted -/
  secret : Str
  /-- `last_used_at` -/
  lastUsedAt : Option ℕ
  /-- `revoked_at` -/
  revokedAt : Option ℕ
  /-- `is_active`, cleared by the soft delete -/
  isActive : Bool
  /-- `created_by_id` -/
  createdBy : Option ℕ
  /-- `updated_by_id` -/
  updatedBy : Option ℕ
  /-- `created_at` -/
  createdAt : ℕ
  /-- `updated_at` -/
  updatedAt : ℕ
  deriving DecidableEq

/-- The part of the database and the cache the operations use. -/
structure Db : Type where
  /-- the `APIKey` table -/
  keys : List Row
  /-- `is_active` of the users -/
  users : ℕ → Bool
  /-- the next value of the primary-key sequence -/
  nextPk : ℕ
  /-- does the `rate_limit` cache hold `apikey_used_<pk>`? -/
  debounce : ℕ → Bool

/-- `UPDATE ... WHERE pk = ...`. -/
def updateRow (keys : List Row) (pk : ℕ) (f : Row → Row) : List Row :=
  keys.map fun r => if r.pk = pk then f r else r

/-! ## `APIKey.create_key` -/

/-- How `save()` of a new row fails. -/
inductive SaveError : Type where
  /-- `full_clean()` raises `ValidationError` -/
  | validation
  /-- the `INSERT` violates a unique constraint: `IntegrityError` -/
  | integrity
  deriving DecidableEq

/-- How `create_key` fails. -/
inductive CreateError : Type where
  /-- a `ValidationError` passes through: only `IntegrityError` is caught -/
  | validation
  /-- `APIKeyGenerationError` after three collisions -/
  | generation
  deriving DecidableEq

/-- Is the prefix used by a stored row, active or not? -/
def prefixTaken (keys : List Row) (p : Str) : Bool :=
  keys.any fun r => r.keyPrefix == p

/-- `BaseModel.save()` of a new row: `full_clean()`, which also checks unique
fields against the stored rows, then the `INSERT`. -/
def saveNew (clean : Row → Bool) (db : Db) (r : Row) : Except SaveError Db :=
  if !clean r || prefixTaken db.keys r.keyPrefix then .error .validation
  else if prefixTaken db.keys r.keyPrefix then .error .integrity
  else .ok { db with keys := db.keys ++ [r], nextPk := db.nextPk + 1 }

/-- The row `create_key` builds around a raw key. -/
def newRow (db : Db) (user : ℕ) (name : Str) (createdBy : Option ℕ) (now : ℕ) (raw : Str) :
    Row where
  pk := db.nextPk
  user := user
  name := name
  keyPrefix := raw.take 8
  secret := raw
  lastUsedAt := none
  revokedAt := none
  isActive := true
  createdBy := createdBy
  updatedBy := createdBy
  createdAt := now
  updatedAt := now

/-- The retry loop of `create_key` over the raw keys the generator yields. -/
def createAttempts (clean : Row → Bool) (db : Db) (row : Str → Row) :
    List Str → Except CreateError (Db × Row × Str)
  | [] => .error .generation
  | raw :: raws =>
    match saveNew clean db (row raw) with
    | .ok db' => .ok (db', row raw, raw)
    | .error .integrity => createAttempts clean db row raws
    | .error .validation => .error .validation

/-- `APIKey.create_key(user=..., name=..., created_by=...)`. -/
def createKey (clean : Row → Bool) (db : Db) (user : ℕ) (name : Str) (createdBy : Option ℕ)
    (gen : ℕ → Str) (now : ℕ) : Except CreateError (Db × Row × Str) :=
  createAttempts clean db (newRow db user name createdBy now) [gen 0, gen 1, gen 2]

/-! ## `APIKeyService.revoke` and the soft `delete` -/

/-- `.filter(pk=pk, is_active=True).first()`. -/
def activeByPk (keys : List Row) (pk : ℕ) : Option Row :=
  keys.find? fun r => r.pk == pk && r.isActive

/-- The columns `revoke` saves: `update_fields=["revoked_at", "updated_at",
"updated_by"]`. -/
def revokeFields (user now : ℕ) (r : Row) : Row :=
  { r with revokedAt := some now, updatedAt := now, updatedBy := some user }

/-- `APIKeyService.revoke(pk, user=user)`. `none` is a `ValidationError` from
`save()`, which rolls the transaction back. -/
def revoke (clean : Row → Bool) (db : Db) (pk user now : ℕ) : Option (Db × Bool × Bool) :=
  match activeByPk db.keys pk with
  | none => some (db, false, false)
  | some r =>
    if r.revokedAt.isSome then some (db, false, true)
    else if clean (revokeFields user now r) then
      some ({ db with keys := updateRow db.keys pk (revokeFields user now) }, true, false)
    else none

/-- The columns the soft delete saves: `["is_active", "updated_at"]`, and
`"updated_by_id"` when there is a user. -/
def deleteFields (user : Option ℕ) (now : ℕ) (r : Row) : Row :=
  match user with
  | none => { r with isActive := false, updatedAt := now }
  | some u => { r with isActive := false, updatedAt := now, updatedBy := some u }

/-- `APIKeyService.delete(pk, user=user)`. -/
def delete (clean : Row → Bool) (db : Db) (pk : ℕ) (user : Option ℕ) (now : ℕ) :
    Option (Db × Bool) :=
  match activeByPk db.keys pk with
  | none => some (db, false)
  | some r =>
    if clean (deleteFields user now r) then
      some ({ db with keys := updateRow db.keys pk (deleteFields user now) }, true)
    else none

/-! ## `APIKeyAuthentication.authenticate` -/

/-- How `authenticate` raises. -/
inductive AuthError : Type where
  /-- `AuthenticationFailed` with its message -/
  | failed : String → AuthError
  /-- the `TypeError` of `compare_digest` -/
  | typeError : AuthError
  deriving DecidableEq

/-- `.filter(prefix=prefix, is_active=True, revoked_at__isnull=True).first()`. -/
def lookup (keys : List Row) (p : Str) : Option Row :=
  keys.find? fun r => r.keyPrefix == p && r.isActive && r.revokedAt.isNone

/-- What `authenticate` answers: `None` without a key, else the user and the
key. -/
def authenticate (db : Db) (header : Option Str) : Except AuthError (Option (ℕ × Row)) :=
  match header with
  | none => .ok none
  | some key =>
    if key.isEmpty then .ok none
    else if key.length < 8 then .error (.failed "Invalid API key.")
    else
      match lookup db.keys (key.take 8) with
      | none => .error (.failed "Invalid API key.")
      | some r =>
        match compareDigest r.secret key with
        | none => .error .typeError
        | some false => .error (.failed "Invalid API key.")
        | some true =>
          if db.users r.user then .ok (some (r.user, r))
          else .error (.failed "User account is disabled.")

/-- The debounced `last_used_at` stamp of a successful call. -/
def stampUsed (db : Db) (pk now : ℕ) : Db :=
  if db.debounce pk then db
  else { db with
    keys := updateRow db.keys pk fun r => { r with lastUsedAt := some now }
    debounce := Function.update db.debounce pk true }

/-! ## The queries and the table -/

/-- `activeByPk` finds an active row with the primary key. -/
theorem activeByPk_some {keys : List Row} {pk : ℕ} {r : Row} (h : activeByPk keys pk = some r) :
    r ∈ keys ∧ r.pk = pk ∧ r.isActive = true := by
  have hp := List.find?_some h
  simp only [Bool.and_eq_true, beq_iff_eq] at hp
  obtain ⟨hpk, hactive⟩ := hp
  exact ⟨List.mem_of_find?_eq_some h, hpk, hactive⟩

/-- `lookup` finds a live row with the prefix. -/
theorem lookup_some {keys : List Row} {p : Str} {r : Row} (h : lookup keys p = some r) :
    r ∈ keys ∧ r.keyPrefix = p ∧ r.isActive = true ∧ r.revokedAt = none := by
  have hp := List.find?_some h
  simp only [Bool.and_eq_true, beq_iff_eq, Option.isNone_iff_eq_none] at hp
  obtain ⟨⟨hfirst, hactive⟩, hrevoked⟩ := hp
  exact ⟨List.mem_of_find?_eq_some h, hfirst, hactive, hrevoked⟩

/-- A live row is found if no other has its prefix. -/
theorem lookup_of_unique {keys : List Row} {r : Row} (hr : r ∈ keys)
    (hunique : ∀ r' ∈ keys, r'.keyPrefix = r.keyPrefix → r' = r) (hactive : r.isActive = true)
    (hrevoked : r.revokedAt = none) : lookup keys r.keyPrefix = some r := by
  rcases hfind : lookup keys r.keyPrefix with _ | r'
  · have := List.find?_eq_none.mp hfind r hr
    simp [hactive, hrevoked] at this
  · obtain ⟨hr', hp, -⟩ := lookup_some hfind
    rw [hunique r' hr' hp]

/-- `authenticate` answers `None` without a key, -/
theorem authenticate_none_iff {db : Db} {header : Option Str} :
    authenticate db header = .ok none ↔ header = none ∨ header = some [] := by
  rcases header with _ | key
  · simp [authenticate]
  rcases key with _ | ⟨c, key⟩
  · simp [authenticate]
  refine iff_of_false ?_ (by simp)
  intro h
  simp only [authenticate, List.isEmpty_cons, Bool.false_eq_true, if_false] at h
  split at h
  · cases h
  split at h
  · cases h
  split at h
  · cases h
  · cases h
  · split at h <;> cases h

/-- a user and a key if the row found has the header as its secret, -/
theorem authenticate_pair_iff {db : Db} {key : Str} {user : ℕ} {r : Row} :
    authenticate db (some key) = .ok (some (user, r)) ↔
      8 ≤ key.length ∧ lookup db.keys (key.take 8) = some r ∧ r.user = user ∧
        key.isAscii = true ∧ r.secret = key ∧ db.users user = true := by
  refine ⟨?_, ?_⟩
  · intro h
    simp only [authenticate] at h
    split at h
    · cases h
    split at h
    · cases h
    next hlength =>
    split at h
    · cases h
    next hlookup =>
    split at h
    · cases h
    · cases h
    next hcompare =>
    split at h
    · next huser =>
      cases h
      obtain ⟨hascii, hsecret⟩ := compareDigest_eq_true.mp hcompare
      exact ⟨Nat.le_of_not_lt hlength, hlookup, rfl, hascii, hsecret, huser⟩
    · cases h
  · rintro ⟨hlength, hlookup, rfl, hascii, hsecret, huser⟩
    have hne : key.isEmpty = false := by
      rw [List.isEmpty_eq_false_iff]
      exact List.ne_nil_of_length_pos (by omega)
    have hcompare : compareDigest r.secret key = some true :=
      compareDigest_eq_true.mpr ⟨hascii, hsecret⟩
    simp [authenticate, hne, Nat.not_lt.mpr hlength, hlookup, hcompare, huser]

/-- and a `TypeError` if it finds a row and one of the two is not ASCII. -/
theorem authenticate_typeError_iff {db : Db} {key : Str} :
    authenticate db (some key) = .error .typeError ↔
      8 ≤ key.length ∧ ∃ r, lookup db.keys (key.take 8) = some r ∧
        ¬ (r.secret.isAscii = true ∧ key.isAscii = true) := by
  refine ⟨?_, ?_⟩
  · intro h
    simp only [authenticate] at h
    split at h
    · cases h
    split at h
    · cases h
    next hlength =>
    split at h
    · cases h
    next r hlookup =>
    split at h
    · next hcompare =>
      exact ⟨Nat.le_of_not_lt hlength, r, hlookup, compareDigest_eq_none.mp hcompare⟩
    · cases h
    · split at h <;> cases h
  · rintro ⟨hlength, r, hlookup, hascii⟩
    have hne : key.isEmpty = false := by
      rw [List.isEmpty_eq_false_iff]
      exact List.ne_nil_of_length_pos (by omega)
    have hcompare : compareDigest r.secret key = none := compareDigest_eq_none.mpr hascii
    simp [authenticate, hne, Nat.not_lt.mpr hlength, hlookup, hcompare]

/-- No stored row has a free prefix. -/
theorem keyPrefix_ne_of_free {keys : List Row} {p : Str} (h : prefixTaken keys p = false)
    {r : Row} (hr : r ∈ keys) : r.keyPrefix ≠ p := by
  intro hp
  have := List.any_eq_false.mp h r hr
  simp [hp] at this

/-! ### Rows that keep their key -/

/-- The columns no step changes. -/
structure SameKey (r r' : Row) : Prop where
  /-- the primary key -/
  pk : r'.pk = r.pk
  /-- the prefix -/
  keyPrefix : r'.keyPrefix = r.keyPrefix
  /-- the secret -/
  secret : r'.secret = r.secret
  /-- the owner -/
  user : r'.user = r.user

theorem SameKey.refl (r : Row) : SameKey r r := ⟨rfl, rfl, rfl, rfl⟩

theorem SameKey.symm {r r' : Row} (h : SameKey r r') : SameKey r' r :=
  ⟨h.pk.symm, h.keyPrefix.symm, h.secret.symm, h.user.symm⟩

theorem SameKey.trans {r r' r'' : Row} (h : SameKey r r') (h' : SameKey r' r'') :
    SameKey r r'' :=
  ⟨h'.pk.trans h.pk, h'.keyPrefix.trans h.keyPrefix, h'.secret.trans h.secret,
    h'.user.trans h.user⟩

theorem revokeFields_sameKey (user now : ℕ) (r : Row) : SameKey r (revokeFields user now r) :=
  ⟨rfl, rfl, rfl, rfl⟩

theorem deleteFields_sameKey (user : Option ℕ) (now : ℕ) (r : Row) :
    SameKey r (deleteFields user now r) := by
  cases user <;> exact ⟨rfl, rfl, rfl, rfl⟩

/-- The constraints of the table: the primary key and the prefix are unique, and
a prefix is that of the row's secret. -/
structure Table (keys : List Row) : Prop where
  /-- a primary key names one row -/
  pk_inj : ∀ r ∈ keys, ∀ r' ∈ keys, r.pk = r'.pk → r = r'
  /-- and so does a prefix -/
  prefix_inj : ∀ r ∈ keys, ∀ r' ∈ keys, r.keyPrefix = r'.keyPrefix → r = r'
  /-- `prefix=raw_key[:8], secret=raw_key` -/
  prefix_eq : ∀ r ∈ keys, r.keyPrefix = r.secret.take 8

/-- Rewriting rows in place keeps the constraints. -/
theorem Table.map {keys : List Row} (h : Table keys) {f : Row → Row}
    (hf : ∀ r ∈ keys, SameKey r (f r)) : Table (keys.map f) := by
  refine ⟨?_, ?_, ?_⟩
  · intro r hr r' hr' hpk
    obtain ⟨r₀, hr₀, rfl⟩ := List.mem_map.mp hr
    obtain ⟨r₁, hr₁, rfl⟩ := List.mem_map.mp hr'
    rw [(hf r₀ hr₀).pk, (hf r₁ hr₁).pk] at hpk
    rw [h.pk_inj r₀ hr₀ r₁ hr₁ hpk]
  · intro r hr r' hr' hp
    obtain ⟨r₀, hr₀, rfl⟩ := List.mem_map.mp hr
    obtain ⟨r₁, hr₁, rfl⟩ := List.mem_map.mp hr'
    rw [(hf r₀ hr₀).keyPrefix, (hf r₁ hr₁).keyPrefix] at hp
    rw [h.prefix_inj r₀ hr₀ r₁ hr₁ hp]
  · intro r hr
    obtain ⟨r₀, hr₀, rfl⟩ := List.mem_map.mp hr
    rw [(hf r₀ hr₀).keyPrefix, (hf r₀ hr₀).secret]
    exact h.prefix_eq r₀ hr₀

/-- A new row under an unused primary key and prefix keeps them too. -/
theorem Table.snoc {keys : List Row} (h : Table keys) {n : Row} (hpk : ∀ r ∈ keys, r.pk ≠ n.pk)
    (hfirst : ∀ r ∈ keys, r.keyPrefix ≠ n.keyPrefix) (hn : n.keyPrefix = n.secret.take 8) :
    Table (keys ++ [n]) := by
  refine ⟨?_, ?_, ?_⟩
  · intro r hr r' hr' heq
    rcases List.mem_append.mp hr with h₁ | h₁ <;> rcases List.mem_append.mp hr' with h₂ | h₂
    · exact h.pk_inj r h₁ r' h₂ heq
    · obtain rfl := List.mem_singleton.mp h₂
      exact absurd heq (hpk r h₁)
    · obtain rfl := List.mem_singleton.mp h₁
      exact absurd heq.symm (hpk r' h₂)
    · rw [List.mem_singleton.mp h₁, List.mem_singleton.mp h₂]
  · intro r hr r' hr' heq
    rcases List.mem_append.mp hr with h₁ | h₁ <;> rcases List.mem_append.mp hr' with h₂ | h₂
    · exact h.prefix_inj r h₁ r' h₂ heq
    · obtain rfl := List.mem_singleton.mp h₂
      exact absurd heq (hfirst r h₁)
    · obtain rfl := List.mem_singleton.mp h₁
      exact absurd heq.symm (hfirst r' h₂)
    · rw [List.mem_singleton.mp h₁, List.mem_singleton.mp h₂]
  · intro r hr
    rcases List.mem_append.mp hr with hr | hr
    · exact h.prefix_eq r hr
    · obtain rfl := List.mem_singleton.mp hr
      exact hn

end ApiKey

end DjangoBoilerplate
