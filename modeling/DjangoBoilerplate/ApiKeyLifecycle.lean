import DjangoBoilerplate.ApiKey

/-!
# The life of an API key

Runs of any length of the five operations on API keys, with the history of the
calls and of what each returned. `Ledger` ties the table to what was returned:
a row is revoked exactly when a call reported it, it is inactive exactly when a
delete did, its prefix is the first eight characters of its secret, and no two
rows share one. `Told` ties what was returned to what was asked for: a key is
live as long as no call has named it in a revocation or a delete.

From the two, `authenticate_iff_live`: a header authenticates exactly when it is
the raw key of a live key whose user is active, and it then yields that key and
its user. Revocation happens once (`Ledger.once`) and for good
(`revokedAt_run`).
-/

namespace DjangoBoilerplate

namespace ApiKey

/-- One call. -/
inductive Op : Type where
  /-- `APIKey.create_key`, with the raw keys the generator yields -/
  | create : ℕ → Str → Option ℕ → (ℕ → Str) → ℕ → Op
  /-- `APIKeyService.revoke(pk, user=user)` at a time -/
  | revoke : ℕ → ℕ → ℕ → Op
  /-- `APIKeyService.delete(pk, user=user)` at a time -/
  | delete : ℕ → Option ℕ → ℕ → Op
  /-- a user is activated or deactivated -/
  | setActive : ℕ → Bool → Op
  /-- `APIKeyAuthentication.authenticate` with a header, at a time -/
  | authenticate : Option Str → ℕ → Op
  /-- an `apikey_used_<pk>` cache entry times out -/
  | debounceExpires : ℕ → Op

/-- What a call returned. -/
inductive Outcome : Type where
  /-- `create_key` returned the key and its raw key -/
  | created : ℕ → Str → Outcome
  /-- `create_key` raised -/
  | createFailed : CreateError → Outcome
  /-- `revoke` returned `(revoked_now, already_revoked)` -/
  | revoked : Bool → Bool → Outcome
  /-- `delete` returned -/
  | deleted : Bool → Outcome
  /-- `save()` raised `ValidationError` -/
  | invalid : Outcome
  /-- `authenticate` returned or raised -/
  | answered : Except AuthError (Option (ℕ × Row)) → Outcome
  /-- nothing is returned -/
  | done : Outcome

/-- Run one call. -/
def exec (clean : Row → Bool) (db : Db) : Op → Db × Outcome
  | .create user name createdBy gen now =>
    match createKey clean db user name createdBy gen now with
    | .ok (db', r, raw) => (db', .created r.pk raw)
    | .error e => (db, .createFailed e)
  | .revoke pk user now =>
    match ApiKey.revoke clean db pk user now with
    | some (db', now?, already) => (db', .revoked now? already)
    | none => (db, .invalid)
  | .delete pk user now =>
    match ApiKey.delete clean db pk user now with
    | some (db', ok) => (db', .deleted ok)
    | none => (db, .invalid)
  | .setActive user active =>
    ({ db with users := Function.update db.users user active }, .done)
  | .authenticate header now =>
    match ApiKey.authenticate db header with
    | .ok (some (user, r)) => (stampUsed db r.pk now, .answered (.ok (some (user, r))))
    | other => (db, .answered other)
  | .debounceExpires pk => ({ db with debounce := Function.update db.debounce pk false }, .done)

/-- A run so far: the database, and every call with what it returned. -/
structure World : Type where
  /-- the database -/
  db : Db
  /-- the calls, oldest first -/
  history : List (Op × Outcome)

/-- The calls as a machine; every call is always enabled. -/
def machine (clean : Row → Bool) : Machine World Op where
  step w op :=
    let (db, out) := exec clean w.db op
    some ⟨db, w.history ++ [(op, out)]⟩

/-- No keys yet; any users. -/
def World.init (users : ℕ → Bool) : World where
  db := ⟨[], users, 0, fun _ => false⟩
  history := []

/-! ## What the history says -/

/-- A key was created with this raw key, for this user. -/
def Created (H : List (Op × Outcome)) (pk : ℕ) (raw : Str) (user : ℕ) : Prop :=
  ∃ name createdBy gen now, (Op.create user name createdBy gen now, Outcome.created pk raw) ∈ H

/-- The entry is a `revoke` of the key that returned `(True, False)`. -/
def isRevokeOf (pk : ℕ) : Op × Outcome → Bool
  | (.revoke pk' _ _, .revoked true false) => pk' == pk
  | _ => false

/-- The entry is a `delete` of the key that returned `True`. -/
def isDeleteOf (pk : ℕ) : Op × Outcome → Bool
  | (.delete pk' _ _, .deleted true) => pk' == pk
  | _ => false

/-- The key was revoked. -/
def Revoked (H : List (Op × Outcome)) (pk : ℕ) : Prop :=
  ∃ e ∈ H, isRevokeOf pk e = true

/-- The key was soft-deleted. -/
def Deleted (H : List (Op × Outcome)) (pk : ℕ) : Prop :=
  ∃ e ∈ H, isDeleteOf pk e = true

/-- The call is a revocation or a soft delete of the key. -/
def Op.ends (pk : ℕ) : Op → Bool
  | .revoke pk' _ _ => pk' == pk
  | .delete pk' _ _ => pk' == pk
  | _ => false

/-- The key was created with this raw key, for this user, and no call since was a
revocation or a soft delete of it. -/
def Live (H : List (Op × Outcome)) (pk : ℕ) (raw : Str) (user : ℕ) : Prop :=
  ∃ before after name createdBy gen now,
    H = before ++ (Op.create user name createdBy gen now, Outcome.created pk raw) :: after ∧
      ∀ e ∈ after, e.1.ends pk = false

/-- Is the user active after the call? -/
def Op.switched (user : ℕ) (active : Bool) : Op → Bool
  | .setActive user' active' => if user' = user then active' else active
  | _ => active

/-- Is the user active after the calls? -/
def activeAfter (users : ℕ → Bool) (H : List (Op × Outcome)) (user : ℕ) : Bool :=
  H.foldl (fun active e => e.1.switched user active) (users user)

/-- Model validation passes when `revoke` and `delete` save. -/
structure SavesPass (clean : Row → Bool) : Prop where
  /-- `revoke` -/
  revoke : ∀ user now r, clean (revokeFields user now r) = true
  /-- `delete` -/
  delete : ∀ user now r, clean (deleteFields user now r) = true

/-- The generated raw keys are ASCII and at least eight characters long. -/
def Op.GoodKeys : Op → Prop
  | .create _ _ _ gen _ => ∀ i, (gen i).isAscii = true ∧ 8 ≤ (gen i).length
  | _ => True

/-! ## What a call can do to the table -/

/-- The effects of a call, with what it returned. -/
inductive Effect (db : Db) : Op → Db → Outcome → Prop where
  /-- a new key, under an unused prefix -/
  | create {user : ℕ} {name : Str} {createdBy : Option ℕ} {gen : ℕ → Str} {now : ℕ} (i : ℕ)
      (hfree : prefixTaken db.keys ((gen i).take 8) = false) :
    Effect db (.create user name createdBy gen now)
      { db with
        keys := db.keys ++ [newRow db user name createdBy now (gen i)]
        nextPk := db.nextPk + 1 }
      (.created db.nextPk (gen i))
  /-- the first revocation of an active key -/
  | revoke {pk user now : ℕ} (r : Row) (hr : activeByPk db.keys pk = some r)
      (hfresh : r.revokedAt = none) :
    Effect db (.revoke pk user now)
      { db with keys := updateRow db.keys pk (revokeFields user now) } (.revoked true false)
  /-- the soft delete of an active key -/
  | delete {pk : ℕ} {user : Option ℕ} {now : ℕ} (r : Row) (hr : activeByPk db.keys pk = some r) :
    Effect db (.delete pk user now)
      { db with keys := updateRow db.keys pk (deleteFields user now) } (.deleted true)
  /-- only columns and tables outside the ledger change -/
  | other {op : Op} {db' : Db} {out : Outcome} (f : Row → Row)
      (hkeys : db'.keys = db.keys.map f) (hnext : db'.nextPk = db.nextPk)
      (hf : ∀ r, f r = { r with lastUsedAt := (f r).lastUsedAt })
      (hcreate : ∀ pk raw, out ≠ .created pk raw)
      (hrevoke : ∀ pk, isRevokeOf pk (op, out) = false)
      (hdelete : ∀ pk, isDeleteOf pk (op, out) = false) :
    Effect db op db' out

/-- A call that leaves the table alone. -/
theorem Effect.frame {db db' : Db} {op : Op} {out : Outcome} (hkeys : db'.keys = db.keys)
    (hnext : db'.nextPk = db.nextPk) (hcreate : ∀ pk raw, out ≠ .created pk raw)
    (hrevoke : ∀ pk, isRevokeOf pk (op, out) = false)
    (hdelete : ∀ pk, isDeleteOf pk (op, out) = false) : Effect db op db' out :=
  .other id (by rw [hkeys, List.map_id]) hnext (fun _ => rfl) hcreate hrevoke hdelete

/-- The retry loop inserts one row, under a prefix that was free. -/
theorem createAttempts_ok {clean : Row → Bool} {db : Db} {row : Str → Row} :
    ∀ {raws : List Str} {db' : Db} {r : Row} {raw : Str},
      createAttempts clean db row raws = .ok (db', r, raw) →
      raw ∈ raws ∧ r = row raw ∧ prefixTaken db.keys (row raw).keyPrefix = false ∧
        db' = { db with keys := db.keys ++ [row raw], nextPk := db.nextPk + 1 } := by
  intro raws
  induction raws with
  | nil =>
    intro db' r raw h
    cases h
  | cons head rest ih =>
    intro db' r raw h
    simp only [createAttempts, saveNew] at h
    by_cases htaken : prefixTaken db.keys (row head).keyPrefix = true
    · simp [htaken] at h
    · by_cases hclean : clean (row head) = true
      · simp only [htaken, hclean] at h
        simp only [Bool.not_true, Bool.or_self, Bool.false_eq_true, if_false] at h
        cases h
        exact ⟨List.mem_cons_self .., rfl, by simpa using htaken, rfl⟩
      · simp [hclean] at h

/-- **Inversion**: every call has one of the listed effects. -/
theorem effect_exec (clean : Row → Bool) (db : Db) (op : Op) :
    Effect db op (exec clean db op).1 (exec clean db op).2 := by
  cases op with
  | create user name createdBy gen now =>
    simp only [exec]
    split
    · next db' r raw h =>
      obtain ⟨hmem, rfl, hfree, rfl⟩ := createAttempts_ok h
      obtain ⟨i, rfl⟩ : ∃ i, raw = gen i := by
        simp only [List.mem_cons, List.not_mem_nil, or_false] at hmem
        rcases hmem with h | h | h
        · exact ⟨0, h⟩
        · exact ⟨1, h⟩
        · exact ⟨2, h⟩
      exact .create i hfree
    · exact .frame rfl rfl (by simp) (fun _ => rfl) fun _ => rfl
  | revoke pk user now =>
    simp only [exec, ApiKey.revoke]
    rcases hr : activeByPk db.keys pk with _ | r
    · exact .frame rfl rfl (by simp) (fun _ => rfl) fun _ => rfl
    · rcases hrev : r.revokedAt with _ | t
      · by_cases hclean : clean (revokeFields user now r) = true
        · simp only [hrev, hclean, Option.isSome_none, Bool.false_eq_true, if_false, if_true]
          exact .revoke r hr hrev
        · simp only [hrev, hclean, Option.isSome_none, Bool.false_eq_true, if_false]
          exact .frame rfl rfl (by simp) (fun _ => rfl) fun _ => rfl
      · simp only [hrev, Option.isSome_some, if_true]
        exact .frame rfl rfl (by simp) (fun _ => rfl) fun _ => rfl
  | delete pk user now =>
    simp only [exec, ApiKey.delete]
    rcases hr : activeByPk db.keys pk with _ | r
    · exact .frame rfl rfl (by simp) (fun _ => rfl) fun _ => rfl
    · by_cases hclean : clean (deleteFields user now r) = true
      · simp only [hclean, if_true]
        exact .delete r hr
      · simp only [hclean, Bool.false_eq_true, if_false]
        exact .frame rfl rfl (by simp) (fun _ => rfl) fun _ => rfl
  | setActive user active => exact .frame rfl rfl (by simp [exec]) (fun _ => rfl) fun _ => rfl
  | authenticate header now =>
    simp only [exec]
    split
    · next user r h =>
      simp only [stampUsed]
      split
      · exact .frame rfl rfl (by simp) (fun _ => rfl) fun _ => rfl
      · refine .other (fun x => if x.pk = r.pk then { x with lastUsedAt := some now } else x)
          rfl rfl ?_ (by simp) (fun _ => rfl) fun _ => rfl
        intro x
        split <;> rfl
    · exact .frame rfl rfl (by simp) (fun _ => rfl) fun _ => rfl
  | debounceExpires pk => exact .frame rfl rfl (by simp [exec]) (fun _ => rfl) fun _ => rfl

/-! ## The ledger -/

/-- The table agrees with the history. -/
structure Ledger (w : World) : Prop where
  /-- the constraints of the table -/
  table : Table w.db.keys
  /-- the sequence is ahead of every row -/
  pk_lt : ∀ r ∈ w.db.keys, r.pk < w.db.nextPk
  /-- the secrets are good keys -/
  secret : ∀ r ∈ w.db.keys, r.secret.isAscii = true ∧ 8 ≤ r.secret.length
  /-- the rows are the created keys -/
  created : ∀ pk raw user, Created w.history pk raw user ↔
    ∃ r ∈ w.db.keys, r.pk = pk ∧ r.secret = raw ∧ r.user = user
  /-- `revoked_at` is set on the revoked ones -/
  revoked : ∀ r ∈ w.db.keys, r.revokedAt ≠ none ↔ Revoked w.history r.pk
  /-- `is_active` is cleared on the deleted ones -/
  deleted : ∀ r ∈ w.db.keys, r.isActive = false ↔ Deleted w.history r.pk
  /-- only existing keys were revoked or deleted -/
  named : ∀ pk, Revoked w.history pk ∨ Deleted w.history pk → pk < w.db.nextPk
  /-- no key was revoked twice -/
  once : ∀ pk, w.history.countP (isRevokeOf pk) ≤ 1

theorem ledger_init (users : ℕ → Bool) : Ledger (World.init users) := by
  constructor
  case table => constructor <;> simp [World.init]
  all_goals simp [World.init, Created, Revoked, Deleted]

/-! ### Reading one more entry of the history -/

theorem revoked_snoc {H : List (Op × Outcome)} {e : Op × Outcome} {pk : ℕ} :
    Revoked (H ++ [e]) pk ↔ Revoked H pk ∨ isRevokeOf pk e = true := by
  simp [Revoked, or_and_right, exists_or]

theorem deleted_snoc {H : List (Op × Outcome)} {e : Op × Outcome} {pk : ℕ} :
    Deleted (H ++ [e]) pk ↔ Deleted H pk ∨ isDeleteOf pk e = true := by
  simp [Deleted, or_and_right, exists_or]

/-- An entry that creates nothing adds no created key. -/
theorem created_snoc_of_ne {H : List (Op × Outcome)} {e : Op × Outcome}
    (he : ∀ pk raw, e.2 ≠ .created pk raw) (pk : ℕ) (raw : Str) (user : ℕ) :
    Created (H ++ [e]) pk raw user ↔ Created H pk raw user := by
  refine ⟨?_, ?_⟩
  · rintro ⟨name, createdBy, gen, now, h⟩
    rcases List.mem_append.mp h with h | h
    · exact ⟨name, createdBy, gen, now, h⟩
    · obtain rfl := List.mem_singleton.mp h
      exact absurd rfl (he pk raw)
  · rintro ⟨name, createdBy, gen, now, h⟩
    exact ⟨name, createdBy, gen, now, List.mem_append_left _ h⟩

/-- A key that was not revoked has no `(True, False)` entry. -/
theorem countP_eq_zero_of_not_revoked {H : List (Op × Outcome)} {pk : ℕ} (h : ¬ Revoked H pk) :
    H.countP (isRevokeOf pk) = 0 := by
  rw [List.countP_eq_zero]
  intro e he hrev
  exact h ⟨e, he, hrev⟩

/-! ### Steps that rewrite rows in place -/

/-- Rewriting rows in place keeps the ledger, given that `revoked_at` and
`is_active` follow the new entry of the history. -/
theorem Ledger.rewrite {w : World} (hw : Ledger w) {db : Db} {e : Op × Outcome} {f : Row → Row}
    (hkeys : db.keys = w.db.keys.map f) (hnext : db.nextPk = w.db.nextPk)
    (hf : ∀ r, SameKey r (f r)) (he : ∀ pk raw, e.2 ≠ .created pk raw)
    (hrev : ∀ r ∈ w.db.keys, (f r).revokedAt ≠ none ↔
      Revoked w.history r.pk ∨ isRevokeOf r.pk e = true)
    (hdel : ∀ r ∈ w.db.keys, (f r).isActive = false ↔
      Deleted w.history r.pk ∨ isDeleteOf r.pk e = true)
    (hnamed : ∀ pk, isRevokeOf pk e = true ∨ isDeleteOf pk e = true → pk < w.db.nextPk)
    (honce : ∀ pk, isRevokeOf pk e = true → ¬ Revoked w.history pk) :
    Ledger ⟨db, w.history ++ [e]⟩ := by
  -- every row of the new table comes from one of the old, with the same key
  have old : ∀ {r}, r ∈ db.keys → ∃ r₀ ∈ w.db.keys, r = f r₀ ∧ SameKey r₀ r := by
    intro r hr
    rw [hkeys] at hr
    obtain ⟨r₀, hr₀, rfl⟩ := List.mem_map.mp hr
    exact ⟨r₀, hr₀, rfl, hf r₀⟩
  refine ⟨?_, ?_, ?_, ?_, ?_, ?_, ?_, ?_⟩
  · rw [hkeys]
    exact hw.table.map fun r _ => hf r
  · intro r hr
    obtain ⟨r₀, hr₀, rfl, hsame⟩ := old hr
    rw [hsame.pk]
    exact hnext ▸ hw.pk_lt r₀ hr₀
  · intro r hr
    obtain ⟨r₀, hr₀, rfl, hsame⟩ := old hr
    rw [hsame.secret]
    exact hw.secret r₀ hr₀
  · intro pk raw user
    rw [created_snoc_of_ne he, hw.created]
    refine ⟨?_, ?_⟩
    · rintro ⟨r, hr, rfl, rfl, rfl⟩
      exact ⟨f r, hkeys ▸ List.mem_map_of_mem hr, (hf r).pk, (hf r).secret, (hf r).user⟩
    · rintro ⟨r, hr, rfl, rfl, rfl⟩
      obtain ⟨r₀, hr₀, rfl, hsame⟩ := old hr
      exact ⟨r₀, hr₀, hsame.pk.symm, hsame.secret.symm, hsame.user.symm⟩
  · intro r hr
    obtain ⟨r₀, hr₀, rfl, hsame⟩ := old hr
    rw [hsame.pk, revoked_snoc]
    exact hrev r₀ hr₀
  · intro r hr
    obtain ⟨r₀, hr₀, rfl, hsame⟩ := old hr
    rw [hsame.pk, deleted_snoc]
    exact hdel r₀ hr₀
  · intro pk h
    rw [revoked_snoc, deleted_snoc] at h
    rw [show (⟨db, w.history ++ [e]⟩ : World).db.nextPk = w.db.nextPk from hnext]
    rcases h with (h | h) | (h | h)
    · exact hw.named pk (Or.inl h)
    · exact hnamed pk (Or.inl h)
    · exact hw.named pk (Or.inr h)
    · exact hnamed pk (Or.inr h)
  · intro pk
    rw [List.countP_append, List.countP_singleton]
    split
    · next hpk =>
      rw [countP_eq_zero_of_not_revoked (honce pk hpk)]
    · exact hw.once pk

/-- The first revocation of an active key keeps the ledger. -/
theorem Ledger.revoke {w : World} (hw : Ledger w) {pk user now : ℕ} {r : Row}
    (hr : activeByPk w.db.keys pk = some r) (hfresh : r.revokedAt = none) :
    Ledger ⟨{ w.db with keys := updateRow w.db.keys pk (revokeFields user now) },
      w.history ++ [(.revoke pk user now, .revoked true false)]⟩ := by
  obtain ⟨hmem, rfl, -⟩ := activeByPk_some hr
  have hnot : ¬ Revoked w.history r.pk := fun h => (hw.revoked r hmem).mpr h hfresh
  refine hw.rewrite (f := fun x => if x.pk = r.pk then revokeFields user now x else x) rfl rfl ?_
    (by simp) ?_ ?_ ?_ ?_
  · intro x
    split
    · exact revokeFields_sameKey user now x
    · exact .refl x
  · intro x hx
    by_cases hpk : x.pk = r.pk
    · simp [hpk, isRevokeOf, revokeFields]
    · simp only [hpk, if_false, isRevokeOf, beq_iff_eq, Ne.symm hpk, or_false]
      exact hw.revoked x hx
  · intro x hx
    rw [hw.deleted x hx |>.symm]
    by_cases hpk : x.pk = r.pk
    · simp [hpk, isDeleteOf, revokeFields]
    · simp [hpk, isDeleteOf]
  · intro pk h
    simp only [isRevokeOf, isDeleteOf, beq_iff_eq, Bool.false_eq_true, or_false] at h
    exact h ▸ hw.pk_lt r hmem
  · intro pk h
    simp only [isRevokeOf, beq_iff_eq] at h
    exact h ▸ hnot

/-- The soft delete of an active key keeps the ledger. -/
theorem Ledger.delete {w : World} (hw : Ledger w) {pk : ℕ} {user : Option ℕ} {now : ℕ} {r : Row}
    (hr : activeByPk w.db.keys pk = some r) :
    Ledger ⟨{ w.db with keys := updateRow w.db.keys pk (deleteFields user now) },
      w.history ++ [(.delete pk user now, .deleted true)]⟩ := by
  obtain ⟨hmem, rfl, -⟩ := activeByPk_some hr
  have hinactive : ∀ x, (deleteFields user now x).isActive = false := by
    intro x
    cases user <;> rfl
  have hrevoked : ∀ x, (deleteFields user now x).revokedAt = x.revokedAt := by
    intro x
    cases user <;> rfl
  refine hw.rewrite (f := fun x => if x.pk = r.pk then deleteFields user now x else x) rfl rfl ?_
    (by simp) ?_ ?_ ?_ (by simp [isRevokeOf])
  · intro x
    split
    · exact deleteFields_sameKey user now x
    · exact .refl x
  · intro x hx
    rw [hw.revoked x hx |>.symm]
    by_cases hpk : x.pk = r.pk
    · simp [hpk, isRevokeOf, hrevoked]
    · simp [hpk, isRevokeOf]
  · intro x hx
    by_cases hpk : x.pk = r.pk
    · simp [hpk, isDeleteOf, hinactive]
    · simp only [hpk, if_false, isDeleteOf, beq_iff_eq, Ne.symm hpk, or_false]
      exact hw.deleted x hx
  · intro pk h
    simp only [isRevokeOf, isDeleteOf, beq_iff_eq, Bool.false_eq_true, false_or] at h
    exact h ▸ hw.pk_lt r hmem

/-- A call that changes nothing but `last_used_at` keeps the ledger. -/
theorem Ledger.other {w : World} (hw : Ledger w) {db : Db} {e : Op × Outcome} {f : Row → Row}
    (hkeys : db.keys = w.db.keys.map f) (hnext : db.nextPk = w.db.nextPk)
    (hf : ∀ r, f r = { r with lastUsedAt := (f r).lastUsedAt })
    (he : ∀ pk raw, e.2 ≠ .created pk raw) (hrevoke : ∀ pk, isRevokeOf pk e = false)
    (hdelete : ∀ pk, isDeleteOf pk e = false) : Ledger ⟨db, w.history ++ [e]⟩ := by
  refine hw.rewrite hkeys hnext ?_ he ?_ ?_ ?_ ?_
  · intro r
    rw [hf r]
    exact ⟨rfl, rfl, rfl, rfl⟩
  · intro r hr
    rw [hf r, hrevoke]
    simpa using hw.revoked r hr
  · intro r hr
    rw [hf r, hdelete]
    simpa using hw.deleted r hr
  · intro pk h
    simp [hrevoke, hdelete] at h
  · intro pk h
    simp [hrevoke] at h

/-! ### The step that adds a row -/

/-- A new key under a free prefix keeps the ledger. -/
theorem Ledger.create {w : World} (hw : Ledger w) {user : ℕ} {name : Str} {createdBy : Option ℕ}
    {gen : ℕ → Str} {now i : ℕ} (hgood : (Op.create user name createdBy gen now).GoodKeys)
    (hfree : prefixTaken w.db.keys ((gen i).take 8) = false) :
    Ledger ⟨{ w.db with
        keys := w.db.keys ++ [newRow w.db user name createdBy now (gen i)]
        nextPk := w.db.nextPk + 1 },
      w.history ++ [(.create user name createdBy gen now, .created w.db.nextPk (gen i))]⟩ := by
  -- the sequence value names no row and no entry of the history yet
  have hnew : ∀ r ∈ w.db.keys, r.pk ≠ w.db.nextPk := fun r hr => (hw.pk_lt r hr).ne
  have hnot : ¬ (Revoked w.history w.db.nextPk ∨ Deleted w.history w.db.nextPk) :=
    fun h => (hw.named _ h).false
  refine ⟨?_, ?_, ?_, ?_, ?_, ?_, ?_, ?_⟩
  · exact hw.table.snoc hnew (fun r hr => keyPrefix_ne_of_free hfree hr) rfl
  · intro r hr
    rcases List.mem_append.mp hr with hr | hr
    · exact Nat.lt_succ_of_lt (hw.pk_lt r hr)
    · obtain rfl := List.mem_singleton.mp hr
      exact Nat.lt_succ_self _
  · intro r hr
    rcases List.mem_append.mp hr with hr | hr
    · exact hw.secret r hr
    · obtain rfl := List.mem_singleton.mp hr
      exact hgood i
  · intro pk raw user'
    refine ⟨?_, ?_⟩
    · rintro ⟨name', createdBy', gen', now', h⟩
      rcases List.mem_append.mp h with h | h
      · obtain ⟨r, hr, hrest⟩ := (hw.created pk raw user').mp ⟨_, _, _, _, h⟩
        exact ⟨r, List.mem_append_left _ hr, hrest⟩
      · cases List.mem_singleton.mp h
        exact ⟨_, List.mem_append_right _ (List.mem_singleton_self _), rfl, rfl, rfl⟩
    · rintro ⟨r, hr, rfl, rfl, rfl⟩
      rcases List.mem_append.mp hr with hr | hr
      · obtain ⟨_, _, _, _, h⟩ := (hw.created _ _ _).mpr ⟨r, hr, rfl, rfl, rfl⟩
        exact ⟨_, _, _, _, List.mem_append_left _ h⟩
      · obtain rfl := List.mem_singleton.mp hr
        exact ⟨_, _, _, _, List.mem_append_right _ (List.mem_singleton_self _)⟩
  · intro r hr
    rw [revoked_snoc]
    rcases List.mem_append.mp hr with hr | hr
    · simpa [isRevokeOf] using hw.revoked r hr
    · obtain rfl := List.mem_singleton.mp hr
      simpa [isRevokeOf, newRow] using fun h => hnot (Or.inl h)
  · intro r hr
    rw [deleted_snoc]
    rcases List.mem_append.mp hr with hr | hr
    · simpa [isDeleteOf] using hw.deleted r hr
    · obtain rfl := List.mem_singleton.mp hr
      simpa [isDeleteOf, newRow] using fun h => hnot (Or.inr h)
  · intro pk h
    rw [revoked_snoc, deleted_snoc] at h
    simp only [isRevokeOf, isDeleteOf, Bool.false_eq_true, or_false] at h
    exact Nat.lt_succ_of_lt (hw.named pk h)
  · intro pk
    rw [List.countP_append, List.countP_singleton]
    simpa [isRevokeOf] using hw.once pk

/-! ### Every run -/

/-- **Step lemma.** Every call keeps the ledger. -/
theorem ledger_step {clean : Row → Bool} {w w' : World} {op : Op} (hw : Ledger w)
    (hgood : op.GoodKeys) (h : (machine clean).step w op = some w') : Ledger w' := by
  have heff := effect_exec clean w.db op
  obtain rfl : ⟨(exec clean w.db op).1, w.history ++ [(op, (exec clean w.db op).2)]⟩ = w' :=
    Option.some.inj h
  generalize (exec clean w.db op).1 = db, (exec clean w.db op).2 = out at heff ⊢
  cases heff with
  | create i hfree => exact hw.create hgood hfree
  | revoke r hr hfresh => exact hw.revoke hr hfresh
  | delete r hr => exact hw.delete hr
  | other f hkeys hnext hf hcreate hrevoke hdelete =>
    exact hw.other hkeys hnext hf hcreate hrevoke hdelete

/-- **Run lemma.** The ledger holds after every run from the empty table. -/
theorem ledger_run {clean : Row → Bool} {users : ℕ → Bool} {ops : List Op} {w : World}
    (hgood : ∀ op ∈ ops, op.GoodKeys)
    (h : (machine clean).run (World.init users) ops = some w) : Ledger w :=
  Machine.run_invariant ledger_step (ledger_init users) (Machine.meets_of_forall_mem hgood) h

/-! ## Who authenticates -/

/-- What `authenticate` answers for a good header. -/
theorem Ledger.authenticate_ok {w : World} (hw : Ledger w) {h : Str} (hascii : h.isAscii = true)
    {user : ℕ} {r : Row} :
    ApiKey.authenticate w.db (some h) = .ok (some (user, r)) ↔
      r ∈ w.db.keys ∧ r.secret = h ∧ r.user = user ∧ r.isActive = true ∧ r.revokedAt = none ∧
        w.db.users user = true := by
  rw [authenticate_pair_iff]
  refine ⟨?_, ?_⟩
  · rintro ⟨-, hlookup, rfl, -, hsecret, huser⟩
    obtain ⟨hr, -, hactive, hfresh⟩ := lookup_some hlookup
    exact ⟨hr, hsecret, rfl, hactive, hfresh, huser⟩
  · rintro ⟨hr, rfl, rfl, hactive, hfresh, huser⟩
    have hlookup : lookup w.db.keys r.keyPrefix = some r :=
      lookup_of_unique hr (fun r' hr' => hw.table.prefix_inj r' hr' r hr) hactive hfresh
    rw [hw.table.prefix_eq r hr] at hlookup
    exact ⟨(hw.secret r hr).2, hlookup, rfl, hascii, rfl, huser⟩

/-- A header authenticates as a key exactly when it is the raw key of a live
one. -/
theorem Ledger.authenticate_iff {w : World} (hw : Ledger w) {h : Str}
    (hascii : h.isAscii = true) (pk user : ℕ) :
    (∃ r ∈ w.db.keys, r.pk = pk ∧ r.secret = h ∧ r.user = user ∧
        ApiKey.authenticate w.db (some h) = .ok (some (user, r))) ↔
      Created w.history pk h user ∧ ¬ Revoked w.history pk ∧ ¬ Deleted w.history pk ∧
        w.db.users user = true := by
  refine ⟨?_, ?_⟩
  · rintro ⟨r, hr, rfl, hsecret, huser, hauth⟩
    obtain ⟨-, -, -, hactive, hfresh, hon⟩ := (hw.authenticate_ok hascii).mp hauth
    refine ⟨(hw.created _ _ _).mpr ⟨r, hr, rfl, hsecret, huser⟩, ?_, ?_, hon⟩
    · exact fun hrev => (hw.revoked r hr).mpr hrev hfresh
    · intro hdel
      rw [(hw.deleted r hr).mpr hdel] at hactive
      cases hactive
  · rintro ⟨hcreated, hrev, hdel, hon⟩
    obtain ⟨r, hr, rfl, hsecret, huser⟩ := (hw.created _ _ _).mp hcreated
    refine ⟨r, hr, rfl, hsecret, huser, (hw.authenticate_ok hascii).mpr
      ⟨hr, hsecret, huser, ?_, ?_, hon⟩⟩
    · exact (Bool.not_eq_false _).mp fun h => hdel ((hw.deleted r hr).mp h)
    · exact not_not.mp fun h => hrev ((hw.revoked r hr).mp h)

/-- Success is always of that form: the answer is a stored row whose secret is
the header, with its owner. -/
theorem Ledger.mem_of_authenticate {w : World} (hw : Ledger w) {h : Str}
    (hascii : h.isAscii = true) {user : ℕ} {r : Row}
    (hauth : ApiKey.authenticate w.db (some h) = .ok (some (user, r))) :
    r ∈ w.db.keys ∧ r.secret = h ∧ r.user = user := by
  obtain ⟨hr, hsecret, huser, -⟩ := (hw.authenticate_ok hascii).mp hauth
  exact ⟨hr, hsecret, huser⟩

/-! ## `revoked_at` is written once -/

/-- The row of a key carries this `revoked_at`. -/
def RevokedAt (db : Db) (pk t : ℕ) : Prop :=
  ∃ r ∈ db.keys, r.pk = pk ∧ r.revokedAt = some t

/-- No call moves a `revoked_at` that is set. -/
theorem revokedAt_exec {clean : Row → Bool} {db : Db} {op : Op} {pk t : ℕ}
    (hinj : ∀ r ∈ db.keys, ∀ r' ∈ db.keys, r.pk = r'.pk → r = r') (h : RevokedAt db pk t) :
    RevokedAt (exec clean db op).1 pk t := by
  obtain ⟨r, hr, rfl, ht⟩ := h
  have heff := effect_exec clean db op
  generalize (exec clean db op).1 = db', (exec clean db op).2 = out at heff ⊢
  cases heff with
  | create i hfree => exact ⟨r, List.mem_append_left _ hr, rfl, ht⟩
  | @revoke pk user now r' hr' hfresh =>
    -- the row `revoke` stamps is another one: this one is revoked already
    obtain ⟨hmem, rfl, -⟩ := activeByPk_some hr'
    have hne : r.pk ≠ r'.pk := by
      intro hpk
      rw [hinj r hr r' hmem hpk, hfresh] at ht
      cases ht
    exact ⟨r, List.mem_map.mpr ⟨r, hr, if_neg hne⟩, rfl, ht⟩
  | @delete pk user now r' hr' =>
    refine ⟨if r.pk = pk then deleteFields user now r else r, List.mem_map_of_mem hr, ?_, ?_⟩
    · split
      · exact (deleteFields_sameKey user now r).pk
      · rfl
    · split
      · cases user <;> exact ht
      · exact ht
  | other f hkeys hnext hf =>
    refine ⟨f r, hkeys ▸ List.mem_map_of_mem hr, ?_, ?_⟩
    · rw [hf r]
    · rw [hf r]
      exact ht

/-- A set `revoked_at` is the same after every continuation of the run. -/
theorem revokedAt_run {clean : Row → Bool} {ops : List Op} {w w' : World} {pk t : ℕ}
    (hw : Ledger w) (hgood : ∀ op ∈ ops, op.GoodKeys) (h : RevokedAt w.db pk t)
    (hrun : (machine clean).run w ops = some w') : Ledger w' ∧ RevokedAt w'.db pk t := by
  refine Machine.run_invariant (I := fun w => Ledger w ∧ RevokedAt w.db pk t) ?_ ⟨hw, h⟩
    (Machine.meets_of_forall_mem hgood) hrun
  rintro s op s' ⟨hs, ht⟩ hop hstep
  refine ⟨ledger_step hs hop hstep, ?_⟩
  obtain rfl : ⟨(exec clean s.db op).1, s.history ++ [(op, (exec clean s.db op).2)]⟩ = s' :=
    Option.some.inj hstep
  exact revokedAt_exec hs.table.pk_inj ht

/-! ## Asked for and reported -/

/-- The last call decides whether a key is live. -/
theorem live_snoc {H : List (Op × Outcome)} {e : Op × Outcome} {pk : ℕ} {raw : Str} {user : ℕ} :
    Live (H ++ [e]) pk raw user ↔ (Live H pk raw user ∧ e.1.ends pk = false) ∨
      ∃ name createdBy gen now, e = (.create user name createdBy gen now, .created pk raw) := by
  refine ⟨?_, ?_⟩
  · rintro ⟨before, after, name, createdBy, gen, now, hH, hafter⟩
    rcases after.eq_nil_or_concat with rfl | ⟨after, last, rfl⟩
    · obtain ⟨-, he⟩ := List.append_inj' hH rfl
      exact .inr ⟨name, createdBy, gen, now, List.singleton_inj.mp he⟩
    · rw [List.concat_eq_append, ← List.cons_append, ← List.append_assoc] at hH
      obtain ⟨rfl, he⟩ := List.append_inj' hH rfl
      obtain rfl := List.singleton_inj.mp he
      refine .inl ⟨⟨before, after, name, createdBy, gen, now, rfl, ?_⟩, ?_⟩
      · exact fun e' he' => hafter e' (by simp [he'])
      · exact hafter _ (by simp)
  · rintro (⟨⟨before, after, name, createdBy, gen, now, rfl, hafter⟩, he⟩ |
      ⟨name, createdBy, gen, now, rfl⟩)
    · refine ⟨before, after ++ [e], name, createdBy, gen, now, by simp, ?_⟩
      intro e' he'
      rcases List.mem_append.mp he' with he' | he'
      · exact hafter e' he'
      · exact List.mem_singleton.mp he' ▸ he
    · exact ⟨H, [], name, createdBy, gen, now, rfl, by simp⟩

theorem created_snoc {H : List (Op × Outcome)} {e : Op × Outcome} {pk : ℕ} {raw : Str}
    {user : ℕ} : Created (H ++ [e]) pk raw user ↔ Created H pk raw user ∨
      ∃ name createdBy gen now, e = (.create user name createdBy gen now, .created pk raw) := by
  simp only [Created, List.mem_append, List.mem_singleton, exists_or, eq_comm]

/-- A call that ends another key, or none, reports nothing about this one. -/
theorem not_reported_of_not_ends {op : Op} {pk : ℕ} (h : op.ends pk = false) (out : Outcome) :
    isRevokeOf pk (op, out) = false ∧ isDeleteOf pk (op, out) = false := by
  cases op with
  | revoke pk' user now =>
    refine ⟨?_, rfl⟩
    cases out with
    | revoked revokedNow already => cases revokedNow <;> cases already <;> first | rfl | exact h
    | _ => rfl
  | delete pk' user now =>
    refine ⟨rfl, ?_⟩
    cases out with
    | deleted found => cases found <;> first | rfl | exact h
    | _ => rfl
  | _ => exact ⟨rfl, rfl⟩

/-- The primary key of a new row is the next of the sequence. -/
theorem pk_of_created {clean : Row → Bool} {db : Db} {op : Op} {pk : ℕ} {raw : Str}
    (h : (exec clean db op).2 = .created pk raw) : pk = db.nextPk := by
  have heff := effect_exec clean db op
  generalize (exec clean db op).1 = db', (exec clean db op).2 = out at heff h
  cases heff with
  | create i hfree =>
    cases h
    rfl
  | revoke r hr hfresh => cases h
  | delete r hr => cases h
  | other f hkeys hnext hf hcreate hrevoke hdelete => exact absurd h (hcreate pk raw)

/-- A call that is to end a stored key reports that it has, unless one before did. -/
theorem reported_of_ends {clean : Row → Bool} (hclean : SavesPass clean) {w : World}
    (hw : Ledger w) {op : Op} {r : Row} (hr : r ∈ w.db.keys) (hop : op.ends r.pk = true) :
    (Revoked w.history r.pk ∨ isRevokeOf r.pk (op, (exec clean w.db op).2) = true) ∨
      (Deleted w.history r.pk ∨ isDeleteOf r.pk (op, (exec clean w.db op).2) = true) := by
  -- no active row has the primary key, or this one is found
  have hfound : Deleted w.history r.pk ∨ activeByPk w.db.keys r.pk = some r := by
    rcases hfind : activeByPk w.db.keys r.pk with _ | r'
    · have hnone := List.find?_eq_none.mp hfind r hr
      simp only [beq_self_eq_true, Bool.true_and, Bool.not_eq_true] at hnone
      exact .inl ((hw.deleted r hr).mp hnone)
    · obtain ⟨hr', hpk, -⟩ := activeByPk_some hfind
      rw [hw.table.pk_inj r' hr' r hr hpk]
      exact .inr rfl
  rcases hfound with hdeleted | hfind
  · exact .inr (.inl hdeleted)
  · cases op with
    | revoke pk user now =>
      obtain rfl : pk = r.pk := beq_iff_eq.mp hop
      rcases hrev : r.revokedAt with _ | t
      · refine .inl (.inr ?_)
        simp [exec, ApiKey.revoke, hfind, hrev, hclean.revoke, isRevokeOf]
      · exact .inl (.inl ((hw.revoked r hr).mp (by simp [hrev])))
    | delete pk user now =>
      obtain rfl : pk = r.pk := beq_iff_eq.mp hop
      refine .inr (.inr ?_)
      simp [exec, ApiKey.delete, hfind, hclean.delete, isDeleteOf]
    | _ => cases hop

/-- Only a switch changes who is active. -/
theorem users_exec (clean : Row → Bool) (db : Db) (op : Op) (user : ℕ) :
    (exec clean db op).1.users user = op.switched user (db.users user) := by
  cases op with
  | create user' name createdBy gen now =>
    simp only [exec]
    split
    · next db' r raw h =>
      obtain ⟨-, -, -, rfl⟩ := createAttempts_ok h
      rfl
    · rfl
  | revoke pk user' now =>
    simp only [exec, ApiKey.revoke]
    rcases activeByPk db.keys pk with _ | r
    · rfl
    · simp only [Op.switched]
      split_ifs <;> rfl
  | delete pk user' now =>
    simp only [exec, ApiKey.delete]
    rcases activeByPk db.keys pk with _ | r
    · rfl
    · simp only [Op.switched]
      split_ifs <;> rfl
  | setActive user' active =>
    simp only [exec, Op.switched, Function.update_apply, eq_comm]
  | authenticate header now =>
    simp only [exec]
    split
    · simp only [stampUsed, Op.switched]
      split_ifs <;> rfl
    · rfl
  | debounceExpires pk => rfl

/-- What was reported is what was asked for. -/
structure Told (users : ℕ → Bool) (w : World) : Prop where
  /-- a key is live until it is reported revoked or deleted -/
  live : ∀ pk raw user, Live w.history pk raw user ↔
    Created w.history pk raw user ∧ ¬ Revoked w.history pk ∧ ¬ Deleted w.history pk
  /-- a user is as active as last asked for -/
  active : ∀ user, w.db.users user = activeAfter users w.history user

theorem told_init (users : ℕ → Bool) : Told users (World.init users) := by
  refine ⟨?_, fun _ => rfl⟩
  intro pk raw user
  simp [World.init, Live, Created]

/-- **Step lemma.** Every call reports what it was asked for. -/
theorem told_step {clean : Row → Bool} (hclean : SavesPass clean) {users : ℕ → Bool}
    {w w' : World} {op : Op} (hw : Ledger w) (ht : Told users w)
    (h : (machine clean).step w op = some w') : Told users w' := by
  obtain rfl : ⟨(exec clean w.db op).1, w.history ++ [(op, (exec clean w.db op).2)]⟩ = w' :=
    Option.some.inj h
  refine ⟨?_, ?_⟩
  · intro pk raw user
    simp only [live_snoc, created_snoc, revoked_snoc, deleted_snoc]
    by_cases hnew : ∃ name createdBy gen now, (op, (exec clean w.db op).2) =
        (.create user name createdBy gen now, .created pk raw)
    · -- nothing was reported of the new key yet
      obtain ⟨name, createdBy, gen, now, hentry⟩ := hnew
      obtain ⟨rfl, hout⟩ := Prod.mk.inj hentry
      obtain rfl := pk_of_created hout
      have hnot : ¬ (Revoked w.history w.db.nextPk ∨ Deleted w.history w.db.nextPk) :=
        fun hnamed => (hw.named _ hnamed).false
      rw [not_or] at hnot
      refine iff_of_true (.inr ⟨name, createdBy, gen, now, hentry⟩)
        ⟨.inr ⟨name, createdBy, gen, now, hentry⟩, ?_, ?_⟩
      · simpa [isRevokeOf] using hnot.1
      · simpa [isDeleteOf] using hnot.2
    · simp only [hnew, or_false]
      rw [ht.live]
      cases hends : op.ends pk with
      | false =>
        obtain ⟨hrevoke, hdelete⟩ := not_reported_of_not_ends hends (exec clean w.db op).2
        simp [hrevoke, hdelete]
      | true =>
        refine iff_of_false (fun hlive => Bool.noConfusion hlive.2) ?_
        rintro ⟨hcreated, hrevoked, hdeleted⟩
        obtain ⟨r, hr, rfl, -⟩ := (hw.created pk raw user).mp hcreated
        exact (reported_of_ends hclean hw hr hends).elim hrevoked hdeleted
  · intro user
    rw [users_exec, ht.active, activeAfter, activeAfter, List.foldl_append]
    rfl

/-- **Run lemma.** -/
theorem told_run {clean : Row → Bool} (hclean : SavesPass clean) {users : ℕ → Bool}
    {ops : List Op} {w : World} (hgood : ∀ op ∈ ops, op.GoodKeys)
    (h : (machine clean).run (World.init users) ops = some w) : Told users w := by
  have hboth := Machine.run_invariant (I := fun w => Ledger w ∧ Told users w)
    (fun {s l t} hs hop hstep => ⟨ledger_step hs.1 hop hstep, told_step hclean hs.1 hs.2 hstep⟩)
    ⟨ledger_init users, told_init users⟩ (Machine.meets_of_forall_mem hgood) h
  exact hboth.2

/-- **The life of an API key.** After every run, an ASCII header authenticates
exactly when it is the raw key of a key that was created and not asked to be
revoked or deleted since, and whose user is active, and the answer is that key
and its user. No key is revoked twice, and no continuation of the run changes a
`revoked_at`. -/
theorem authenticate_iff_live (clean : Row → Bool) (users : ℕ → Bool) (ops : List Op) (w : World)
    (hclean : SavesPass clean) (hgood : ∀ op ∈ ops, op.GoodKeys)
    (hrun : (machine clean).run (World.init users) ops = some w) :
    (∀ h : Str, h.isAscii = true →
      (∀ user r, ApiKey.authenticate w.db (some h) = .ok (some (user, r)) →
        r ∈ w.db.keys ∧ r.secret = h ∧ r.user = user) ∧
      ∀ pk user,
        (∃ r ∈ w.db.keys, r.pk = pk ∧ r.secret = h ∧ r.user = user ∧
            ApiKey.authenticate w.db (some h) = .ok (some (user, r))) ↔
          Live w.history pk h user ∧ activeAfter users w.history user = true) ∧
    (∀ pk, w.history.countP (isRevokeOf pk) ≤ 1) ∧
    ∀ ops' w', (∀ op ∈ ops', op.GoodKeys) → (machine clean).run w ops' = some w' →
      ∀ r ∈ w.db.keys, ∀ t, r.revokedAt = some t →
        (∃ r' ∈ w'.db.keys, r'.pk = r.pk) ∧
          ∀ r' ∈ w'.db.keys, r'.pk = r.pk → r'.revokedAt = some t := by
  have hw := ledger_run hgood hrun
  have ht := told_run hclean hgood hrun
  refine ⟨?_, hw.once, ?_⟩
  · intro h hascii
    refine ⟨fun _ _ => hw.mem_of_authenticate hascii, ?_⟩
    intro pk user
    rw [hw.authenticate_iff hascii, ht.live, ← ht.active, and_assoc, and_assoc]
  · intro ops' w' hgood' hrun' r hr t ht
    obtain ⟨hw', r', hr', hpk, ht'⟩ := revokedAt_run hw hgood' ⟨r, hr, rfl, ht⟩ hrun'
    refine ⟨⟨r', hr', hpk⟩, ?_⟩
    intro r'' hr'' hpk'
    rw [hw'.table.pk_inj r'' hr'' r' hr' (hpk'.trans hpk.symm)]
    exact ht'

/-- Two keys of one user, the first of them revoked. -/
def revokeFirst : List Op :=
  [.create 7 "ci".toList none (fun _ => "aaaaaaaa-1".toList) 0,
   .create 7 "cd".toList none (fun _ => "bbbbbbbb-2".toList) 1,
   .revoke 0 7 2]

/-- There the second raw key still authenticates, and the first does not. -/
theorem second_key_authenticates :
    ∃ w, (machine fun _ => true).run (World.init fun _ => true) revokeFirst = some w ∧
      (∃ r ∈ w.db.keys, r.pk = 1 ∧ r.secret = "bbbbbbbb-2".toList ∧ r.user = 7 ∧
        ApiKey.authenticate w.db (some "bbbbbbbb-2".toList) = .ok (some (7, r))) ∧
      ¬ ∃ r ∈ w.db.keys, r.pk = 0 ∧ r.secret = "aaaaaaaa-1".toList ∧ r.user = 7 ∧
        ApiKey.authenticate w.db (some "aaaaaaaa-1".toList) = .ok (some (7, r)) := by
  have hgood : ∀ op ∈ revokeFirst, op.GoodKeys := by
    simp only [revokeFirst, List.forall_mem_cons, List.not_mem_nil, Op.GoodKeys]
    exact ⟨fun _ => by decide, fun _ => by decide, trivial, by simp⟩
  have hlife := authenticate_iff_live (fun _ => true) (fun _ => true) revokeFirst _
    ⟨fun _ _ _ => rfl, fun _ _ _ => rfl⟩ hgood rfl
  refine ⟨_, rfl, ?_, ?_⟩
  · refine ((hlife.1 "bbbbbbbb-2".toList (by decide)).2 1 7).mpr ⟨?_, rfl⟩
    -- created by the second call; the third revokes the other key
    exact ⟨[_], [_], _, _, _, _, rfl, by simp [Op.ends]⟩
  · intro hauth
    obtain ⟨hlive, -⟩ := ((hlife.1 "aaaaaaaa-1".toList (by decide)).2 0 7).mp hauth
    rcases live_snoc.mp hlive with ⟨-, hends⟩ | ⟨_, _, _, _, hentry⟩
    · cases hends
    · cases hentry

end ApiKey

end DjangoBoilerplate
