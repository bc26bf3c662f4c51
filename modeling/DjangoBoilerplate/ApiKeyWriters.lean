import DjangoBoilerplate.ApiKey

/-!
# Every writer of an API key, interleaved

`APIKeyService.revoke` and the soft `delete` read a row with
`select_for_update()` and hold its lock to the commit. The change form of
`APIKeyAdmin` (`apps/accounts/admin.py`, `apps/core/base/admin.py`) does not: it
reads the instance without a lock and its `save_model` later writes every
column of the instance as read, with the edited fields on top.
`APIKeyAuthentication.authenticate` reads, and then stamps `last_used_at`.

The calls are interleaved step by step. A step that updates the row waits for
its lock, and a transaction becomes visible at its commit, which is the step
that saves.

A form that was read before a revocation and saved after it puts the old
`revoked_at` back (`stale_form_restores_key`). Where no form is saved like that,
revocation is permanent (`revocation_permanent_of_freshForms`).
-/

namespace DjangoBoilerplate

namespace ApiKey

namespace Writers

/-! ## The machine -/

/-- The editable fields of the change form: `user` is read-only there, and
`revoked_at` is in no fieldset. -/
structure Form : Type where
  /-- `name` -/
  name : Str
  /-- `is_active` -/
  isActive : Bool

/-- The instance `save_model` saves: the one that was read, the form's fields,
`updated_by = request.user` and a fresh `updated_at`. -/
def Form.fill (form : Form) (user now : ℕ) (r : Row) : Row :=
  { r with
    name := form.name
    isActive := form.isActive
    updatedBy := some user
    updatedAt := now }

/-- A call. -/
inductive Call : Type where
  /-- `APIKeyService.revoke(pk, user=user)` -/
  | revoke (pk user : ℕ) : Call
  /-- `APIKeyService.delete(pk, user=user)` -/
  | delete (pk : ℕ) (user : Option ℕ) : Call
  /-- a submission of the admin's change form -/
  | change (pk user : ℕ) (form : Form) : Call
  /-- `APIKeyAuthentication.authenticate` with the header -/
  | authenticate (header : Option Str) : Call

/-- What a call returned. -/
inductive Reply : Type where
  /-- `revoke`: `(revoked_now, already_revoked)` -/
  | revoked : Bool → Bool → Reply
  /-- `delete` -/
  | deleted : Bool → Reply
  /-- the form was saved -/
  | changed : Reply
  /-- the admin found no such row -/
  | notFound : Reply
  /-- validation failed and nothing was saved -/
  | invalid : Reply
  /-- `authenticate` -/
  | answered : Except AuthError (Option (ℕ × Row)) → Reply

/-- Where a call stands. -/
inductive Phase : Type where
  /-- it was made -/
  | started : Phase
  /-- it holds the row's lock, with the instance it read -/
  | holding : Row → Phase
  /-- it read the instance, without a lock -/
  | read : Row → Phase
  /-- `authenticate` accepted the key and is to stamp `last_used_at` -/
  | stamping : ℕ → Row → Phase
  /-- it returned -/
  | returned : Reply → Phase

/-- The database, the row locks and the calls. -/
structure State : Type where
  /-- the committed rows -/
  db : Db
  /-- the call that holds a row's lock -/
  lock : ℕ → Option ℕ
  /-- the calls made so far -/
  calls : ℕ → Option (Call × Phase)

/-- The atomic steps. -/
inductive Label : Type where
  /-- a new call -/
  | start : ℕ → Call → Label
  /-- a call takes its next step, at a time -/
  | advance : ℕ → ℕ → Label
  /-- a user is activated or deactivated -/
  | setActive : ℕ → Bool → Label
  /-- an `apikey_used_<pk>` cache entry times out -/
  | debounceExpires : ℕ → Label

/-- No call yet, no lock held. -/
def init (db : Db) : State where
  db := db
  lock := fun _ => none
  calls := fun _ => none

/-- The call is now in this phase. -/
def State.goto (s : State) (i : ℕ) (c : Call) (ph : Phase) : State :=
  { s with calls := Function.update s.calls i (some (c, ph)) }

/-- The call holds the row's lock. -/
def State.acquire (s : State) (pk i : ℕ) : State :=
  { s with lock := Function.update s.lock pk (some i) }

/-- The transaction ends. -/
def State.release (s : State) (pk : ℕ) : State :=
  { s with lock := Function.update s.lock pk none }

/-- An `UPDATE` of one row. -/
def State.write (s : State) (pk : ℕ) (f : Row → Row) : State :=
  { s with db := { s.db with keys := updateRow s.db.keys pk f } }

/-- The next step of a call. -/
def advance (clean : Row → Bool) (s : State) (i now : ℕ) (c : Call) : Phase → Option State
  | .started =>
    match c with
    | .revoke pk _ =>
      if (s.lock pk).isSome then none
      else
        match activeByPk s.db.keys pk with
        | none => some (s.goto i c (.returned (.revoked false false)))
        | some r => some ((s.acquire pk i).goto i c (.holding r))
    | .delete pk _ =>
      if (s.lock pk).isSome then none
      else
        match activeByPk s.db.keys pk with
        | none => some (s.goto i c (.returned (.deleted false)))
        | some r => some ((s.acquire pk i).goto i c (.holding r))
    | .change pk _ _ =>
      match s.db.keys.find? fun r => r.pk == pk with
      | none => some (s.goto i c (.returned .notFound))
      | some r => some (s.goto i c (.read r))
    | .authenticate header =>
      match ApiKey.authenticate s.db header with
      | .ok (some (user, r)) =>
        if s.db.debounce r.pk then
          some (s.goto i c (.returned (.answered (.ok (some (user, r))))))
        else some (s.goto i c (.stamping user r))
      | other => some (s.goto i c (.returned (.answered other)))
  | .holding r =>
    match c with
    | .revoke pk user =>
      if r.revokedAt.isSome then some ((s.release pk).goto i c (.returned (.revoked false true)))
      else if clean (revokeFields user now r) then
        some (((s.write pk (revokeFields user now)).release pk).goto i c
          (.returned (.revoked true false)))
      else some ((s.release pk).goto i c (.returned .invalid))
    | .delete pk user =>
      if clean (deleteFields user now r) then
        some (((s.write pk (deleteFields user now)).release pk).goto i c
          (.returned (.deleted true)))
      else some ((s.release pk).goto i c (.returned .invalid))
    | _ => none
  | .read r =>
    match c with
    | .change pk user form =>
      if (s.lock pk).isSome then none
      else if clean (form.fill user now r) then
        -- `save()` without `update_fields`: every column of the instance
        some ((s.write pk fun _ => form.fill user now r).goto i c (.returned .changed))
      else some (s.goto i c (.returned .invalid))
    | _ => none
  | .stamping user r =>
    if (s.lock r.pk).isSome then none
    else
      some (({ s.write r.pk fun x => { x with lastUsedAt := some now } with
        db.debounce := Function.update s.db.debounce r.pk true }).goto i c
          (.returned (.answered (.ok (some (user, r))))))
  | .returned _ => none

/-- One atomic step. -/
def step (clean : Row → Bool) (s : State) : Label → Option State
  | .start i c =>
    match s.calls i with
    | none => some (s.goto i c .started)
    | some _ => none
  | .advance i now =>
    match s.calls i with
    | none => none
    | some (c, ph) => advance clean s i now c ph
  | .setActive user active =>
    some { s with db.users := Function.update s.db.users user active }
  | .debounceExpires pk =>
    some { s with db.debounce := Function.update s.db.debounce pk false }

/-- The writers and readers of the table as a machine. -/
def machine (clean : Row → Bool) : Machine State Label where
  step := step clean

/-! ## What a step can do -/

/-- The call accepted its key. -/
def Phase.Succeeded : Phase → Bool
  | .stamping _ _ => true
  | .returned (.answered (.ok (some _))) => true
  | _ => false

/-- The phases a call reaches without a write to the table and without having
accepted a key or read an instance to save. -/
def Phase.Quiet : Phase → Prop
  | .started => True
  | .holding _ => True
  | .returned (.revoked now? _) => now? = false
  | .returned (.answered answer) => ∀ x, answer ≠ .ok (some x)
  | .returned _ => True
  | _ => False

/-- The effect of a step on the calls and the table. -/
inductive Effect (clean : Row → Bool) (s : State) : Label → State → Prop where
  /-- a new call -/
  | start {i : ℕ} {c : Call} (hnew : s.calls i = none) :
    Effect clean s (.start i c) (s.goto i c .started)
  /-- users and the cache -/
  | env {l : Label} {t : State} (hcalls : t.calls = s.calls) (hkeys : t.db.keys = s.db.keys) :
    Effect clean s l t
  /-- a call moves on, the table is as it was -/
  | quiet {i now : ℕ} {c : Call} {ph ph' : Phase} {t : State} (hcall : s.calls i = some (c, ph))
      (hcalls : t.calls = Function.update s.calls i (some (c, ph')))
      (hkeys : t.db.keys = s.db.keys) (hquiet : ph'.Quiet) :
    Effect clean s (.advance i now) t
  /-- the admin reads an instance -/
  | read {i now pk user : ℕ} {form : Form} {r : Row}
      (hcall : s.calls i = some (.change pk user form, .started)) (hr : r ∈ s.db.keys)
      (hpk : r.pk = pk) :
    Effect clean s (.advance i now) (s.goto i (.change pk user form) (.read r))
  /-- `authenticate` accepts its key -/
  | accept {i now user : ℕ} {header : Option Str} {r : Row} {ph' : Phase}
      (hcall : s.calls i = some (.authenticate header, .started))
      (hok : ApiKey.authenticate s.db header = .ok (some (user, r)))
      (hread : ∀ r, ph' ≠ .read r) :
    Effect clean s (.advance i now) (s.goto i (.authenticate header) ph')
  /-- `last_used_at` is stamped -/
  | stamp {i now user : ℕ} {c : Call} {r : Row} {t : State}
      (hcall : s.calls i = some (c, .stamping user r))
      (hcalls : t.calls =
        Function.update s.calls i (some (c, .returned (.answered (.ok (some (user, r)))))))
      (hkeys : t.db.keys = updateRow s.db.keys r.pk fun x => { x with lastUsedAt := some now }) :
    Effect clean s (.advance i now) t
  /-- `revoke` saves -/
  | revoke {i now pk user : ℕ} {r : Row} {t : State}
      (hcall : s.calls i = some (.revoke pk user, .holding r))
      (hcalls : t.calls =
        Function.update s.calls i (some (.revoke pk user, .returned (.revoked true false))))
      (hkeys : t.db.keys = updateRow s.db.keys pk (revokeFields user now)) :
    Effect clean s (.advance i now) t
  /-- `delete` saves -/
  | delete {i now pk : ℕ} {user : Option ℕ} {r : Row} {t : State}
      (hcall : s.calls i = some (.delete pk user, .holding r))
      (hcalls : t.calls =
        Function.update s.calls i (some (.delete pk user, .returned (.deleted true))))
      (hkeys : t.db.keys = updateRow s.db.keys pk (deleteFields user now)) :
    Effect clean s (.advance i now) t
  /-- the admin saves -/
  | change {i now pk user : ℕ} {form : Form} {r : Row} {t : State}
      (hcall : s.calls i = some (.change pk user form, .read r)) (hlock : s.lock pk = none)
      (hclean : clean (form.fill user now r) = true)
      (hcalls : t.calls =
        Function.update s.calls i (some (.change pk user form, .returned .changed)))
      (hkeys : t.db.keys = updateRow s.db.keys pk fun _ => form.fill user now r) :
    Effect clean s (.advance i now) t

/-- The first step of a call. -/
theorem effect_started {clean : Row → Bool} {s t : State} {i now : ℕ} {c : Call}
    (hcall : s.calls i = some (c, .started)) (h : advance clean s i now c .started = some t) :
    Effect clean s (.advance i now) t := by
  cases c with
  | revoke pk user =>
    simp only [advance] at h
    split at h
    · cases h
    · split at h
      · obtain rfl := Option.some.inj h
        exact .quiet hcall rfl rfl rfl
      · obtain rfl := Option.some.inj h
        exact .quiet hcall rfl rfl trivial
  | delete pk user =>
    simp only [advance] at h
    split at h
    · cases h
    · split at h
      · obtain rfl := Option.some.inj h
        exact .quiet hcall rfl rfl trivial
      · obtain rfl := Option.some.inj h
        exact .quiet hcall rfl rfl trivial
  | change pk user form =>
    simp only [advance] at h
    rcases hfind : s.db.keys.find? (fun r => r.pk == pk) with _ | r
    · rw [hfind] at h
      obtain rfl := Option.some.inj h
      exact .quiet hcall rfl rfl trivial
    · rw [hfind] at h
      obtain rfl := Option.some.inj h
      exact .read hcall (List.mem_of_find?_eq_some hfind) (by simpa using List.find?_some hfind)
  | authenticate header =>
    simp only [advance] at h
    split at h
    · next user r hok =>
      split at h
      · obtain rfl := Option.some.inj h
        exact .accept hcall hok (by simp)
      · obtain rfl := Option.some.inj h
        exact .accept hcall hok (by simp)
    · next hother =>
      obtain rfl := Option.some.inj h
      exact .quiet hcall rfl rfl fun x => hother x.1 x.2

/-- The step that saves under the lock. -/
theorem effect_holding {clean : Row → Bool} {s t : State} {i now : ℕ} {c : Call} {r : Row}
    (hcall : s.calls i = some (c, .holding r))
    (h : advance clean s i now c (.holding r) = some t) : Effect clean s (.advance i now) t := by
  cases c with
  | revoke pk user =>
    simp only [advance] at h
    split at h
    · obtain rfl := Option.some.inj h
      exact .quiet hcall rfl rfl rfl
    · split at h
      · obtain rfl := Option.some.inj h
        exact .revoke hcall rfl rfl
      · obtain rfl := Option.some.inj h
        exact .quiet hcall rfl rfl trivial
  | delete pk user =>
    simp only [advance] at h
    split at h
    · obtain rfl := Option.some.inj h
      exact .delete hcall rfl rfl
    · obtain rfl := Option.some.inj h
      exact .quiet hcall rfl rfl trivial
  | change pk user form => cases h
  | authenticate header => cases h

/-- **Inversion**: every step has one of the listed effects. -/
theorem effect_of_step {clean : Row → Bool} {s t : State} {l : Label}
    (h : (machine clean).step s l = some t) : Effect clean s l t := by
  cases l with
  | start i c =>
    simp only [machine, step] at h
    split at h
    · next hnew =>
      obtain rfl := Option.some.inj h
      exact .start hnew
    · cases h
  | setActive user active =>
    obtain rfl := Option.some.inj h
    exact .env rfl rfl
  | debounceExpires pk =>
    obtain rfl := Option.some.inj h
    exact .env rfl rfl
  | advance i now =>
    rcases hcall : s.calls i with _ | ⟨c, ph⟩
    · simp [machine, step, hcall] at h
    · simp only [machine, step, hcall] at h
      cases ph with
      | started => exact effect_started hcall h
      | holding r => exact effect_holding hcall h
      | read r =>
        cases c with
        | change pk user form =>
          simp only [advance] at h
          split at h
          · cases h
          · next hlock =>
            split at h
            · next hclean =>
              obtain rfl := Option.some.inj h
              exact .change hcall (by simpa using hlock) hclean rfl rfl
            · obtain rfl := Option.some.inj h
              exact .quiet hcall rfl rfl trivial
        | revoke pk user => cases h
        | delete pk user => cases h
        | authenticate header => cases h
      | stamping user r =>
        simp only [advance] at h
        split at h
        · cases h
        · obtain rfl := Option.some.inj h
          exact .stamp hcall rfl rfl
      | returned reply => cases h

/-! ## The property and the guard -/

/-- Some `revoke` on the key returned `(True, False)`. -/
def RevokeReturned (k : ℕ) (s : State) : Prop :=
  ∃ i user, s.calls i = some (.revoke k user, .returned (.revoked true false))

/-- From `s` to a later `t` revocation was permanent: if a `revoke` had returned
`(True, False)` in `s`, then no `authenticate` that started after `s`, with the
raw key, has succeeded in `t`. -/
def StaysRevoked (k : ℕ) (raw : Str) (s t : State) : Prop :=
  RevokeReturned k s → ∀ i ph, s.calls i = none →
    t.calls i = some (.authenticate (some raw), ph) → ph.Succeeded = false

/-- The guard: the step does not save a form that was read before the key was
revoked, onto the row as it is after the revocation. -/
def FreshForms (clean : Row → Bool) (k : ℕ) (s : State) (l : Label) : Prop :=
  ∀ i now user form r, l = .advance i now → s.calls i = some (.change k user form, .read r) →
    s.lock k = none → clean (form.fill user now r) = true → r.revokedAt = none →
      ∀ x ∈ s.db.keys, x.pk = k → x.revokedAt = none

/-! ## The invariant -/

/-- The row of the key is revoked. -/
def KeyRevoked (k : ℕ) (keys : List Row) : Prop :=
  ∀ r ∈ keys, r.pk = k → r.revokedAt ≠ none

/-- What holds of one key and its raw key throughout a guarded run. -/
structure Inv (k : ℕ) (raw : Str) (s : State) : Prop where
  /-- the constraints of the table -/
  table : Table s.db.keys
  /-- the raw key is still the secret -/
  key : ∃ r ∈ s.db.keys, r.pk = k ∧ r.secret = raw
  /-- an instance read by the admin is a row but for its other columns -/
  snapshot : ∀ i pk user form r, s.calls i = some (.change pk user form, .read r) →
    r.pk = pk ∧ ∃ r₀ ∈ s.db.keys, SameKey r₀ r
  /-- a returned `revoke` left its mark -/
  revoked : RevokeReturned k s → KeyRevoked k s.db.keys

theorem inv_init {db : Db} (hdb : Table db.keys) {row : Row} (hrow : row ∈ db.keys) :
    Inv row.pk row.secret (init db) := by
  refine ⟨hdb, ⟨row, hrow, rfl, rfl⟩, by simp [init], ?_⟩
  rintro ⟨i, user, h⟩
  cases h

/-- A call after one call moved. -/
theorem calls_of_update {s t : State} {i j : ℕ} {x y : Call × Phase}
    (hcalls : t.calls = Function.update s.calls i (some x)) (h : t.calls j = some y) :
    (j = i ∧ y = x) ∨ (j ≠ i ∧ s.calls j = some y) := by
  rw [hcalls] at h
  exact update_eq_some h

/-- A call that moved to another phase than `.read` read nothing: every instance in hand was
in hand before. -/
theorem reads_of_update {s t : State} {i : ℕ} {c : Call} {ph : Phase}
    (hcalls : t.calls = Function.update s.calls i (some (c, ph))) (hread : ∀ r, ph ≠ .read r) :
    ∀ j pk user form r, t.calls j = some (.change pk user form, .read r) →
      s.calls j = some (.change pk user form, .read r) ∨ (r ∈ s.db.keys ∧ r.pk = pk) := by
  intro j pk user form r h
  rcases calls_of_update hcalls h with ⟨-, heq⟩ | ⟨-, h'⟩
  · cases heq
    exact absurd rfl (hread r)
  · exact Or.inl h'

/-- A call that moved without returning `(True, False)` revoked nothing. -/
theorem revokeReturned_of_update {s t : State} {i k : ℕ} {c : Call} {ph : Phase}
    (hcalls : t.calls = Function.update s.calls i (some (c, ph)))
    (hph : ph ≠ .returned (.revoked true false)) (h : RevokeReturned k t) :
    RevokeReturned k s := by
  obtain ⟨j, user, hj⟩ := h
  rcases calls_of_update hcalls hj with ⟨-, heq⟩ | ⟨-, hj'⟩
  · cases heq
    exact absurd rfl hph
  · exact ⟨j, user, hj'⟩

/-- Quiet phases are neither. -/
theorem Phase.Quiet.spec {ph : Phase} (h : ph.Quiet) :
    (∀ r, ph ≠ .read r) ∧ ph ≠ .returned (.revoked true false) ∧ ph.Succeeded = false := by
  cases ph with
  | started => exact ⟨by simp, by simp, rfl⟩
  | holding r => exact ⟨by simp, by simp, rfl⟩
  | read r => cases h
  | stamping user r => cases h
  | returned reply =>
    cases reply with
    | revoked now? already =>
      obtain rfl : now? = false := h
      exact ⟨by simp, by simp, rfl⟩
    | answered answer =>
      refine ⟨by simp, by simp, ?_⟩
      rcases answer with e | _ | x
      · rfl
      · rfl
      · exact absurd rfl (h x)
    | deleted ok => exact ⟨by simp, by simp, rfl⟩
    | changed => exact ⟨by simp, by simp, rfl⟩
    | notFound => exact ⟨by simp, by simp, rfl⟩
    | invalid => exact ⟨by simp, by simp, rfl⟩

/-- Rewriting rows in place keeps the invariant, given that instances in hand
come from the table and that a returned `revoke` left its mark. -/
theorem Inv.rewrite {k : ℕ} {raw : Str} {s t : State} (hs : Inv k raw s) {f : Row → Row}
    (hkeys : t.db.keys = s.db.keys.map f) (hf : ∀ r ∈ s.db.keys, SameKey r (f r))
    (hread : ∀ i pk user form r, t.calls i = some (.change pk user form, .read r) →
      s.calls i = some (.change pk user form, .read r) ∨ (r ∈ s.db.keys ∧ r.pk = pk))
    (hrev : RevokeReturned k t → KeyRevoked k t.db.keys) : Inv k raw t := by
  refine ⟨?_, ?_, ?_, hrev⟩
  · rw [hkeys]
    exact hs.table.map hf
  · obtain ⟨r, hr, hpk, hsecret⟩ := hs.key
    have hsame := hf r hr
    exact ⟨f r, hkeys ▸ List.mem_map_of_mem hr, hsame.pk.trans hpk, hsame.secret.trans hsecret⟩
  · intro i pk user form r h
    have hold : r.pk = pk ∧ ∃ r₀ ∈ s.db.keys, SameKey r₀ r := by
      rcases hread i pk user form r h with h | ⟨hr, hpk⟩
      · exact hs.snapshot i pk user form r h
      · exact ⟨hpk, r, hr, .refl r⟩
    obtain ⟨hpk, r₀, hr₀, hsame⟩ := hold
    refine ⟨hpk, f r₀, hkeys ▸ List.mem_map_of_mem hr₀, (hf r₀ hr₀).symm.trans hsame⟩

/-- With the table as it was. -/
theorem Inv.frame {k : ℕ} {raw : Str} {s t : State} (hs : Inv k raw s)
    (hkeys : t.db.keys = s.db.keys)
    (hread : ∀ i pk user form r, t.calls i = some (.change pk user form, .read r) →
      s.calls i = some (.change pk user form, .read r) ∨ (r ∈ s.db.keys ∧ r.pk = pk))
    (hrev : RevokeReturned k t → RevokeReturned k s) : Inv k raw t := by
  refine hs.rewrite (f := id) (by rw [hkeys, List.map_id]) (fun r _ => .refl r)
    hread ?_
  intro h
  rw [hkeys]
  exact hs.revoked (hrev h)

/-- An `UPDATE` that keeps a set `revoked_at` set keeps the key revoked. -/
theorem KeyRevoked.updateRow {k pk : ℕ} {keys : List Row} (h : KeyRevoked k keys) {f : Row → Row}
    (hpk : ∀ r, (f r).pk = r.pk) (hf : ∀ r, r.revokedAt ≠ none → (f r).revokedAt ≠ none) :
    KeyRevoked k (updateRow keys pk f) := by
  intro r hr hk
  obtain ⟨x, hx, rfl⟩ := List.mem_map.mp hr
  split at hk
  · rw [if_pos ‹_›]
    exact hf x (h x hx ((hpk x).symm.trans hk))
  · rw [if_neg ‹_›]
    exact h x hx hk

/-- **Step lemma.** Under the guard a revoked key stays revoked. -/
theorem keyRevoked_step {clean : Row → Bool} {k : ℕ} {raw : Str} {s t : State} {l : Label}
    (hs : Inv k raw s) (hG : FreshForms clean k s l) (heff : Effect clean s l t)
    (h : KeyRevoked k s.db.keys) : KeyRevoked k t.db.keys := by
  cases heff with
  | start hnew => exact h
  | env hcalls hkeys => exact hkeys ▸ h
  | quiet hcall hcalls hkeys hquiet => exact hkeys ▸ h
  | read hcall hr hpk => exact h
  | accept hcall hok hread => exact h
  | stamp hcall hcalls hkeys =>
    rw [hkeys]
    exact h.updateRow (fun _ => rfl) fun _ hr => hr
  | revoke hcall hcalls hkeys =>
    rw [hkeys]
    exact h.updateRow (fun _ => rfl) fun _ _ => Option.some_ne_none _
  | @delete i now pk user r _ hcall hcalls hkeys =>
    rw [hkeys]
    refine h.updateRow (fun r => (deleteFields_sameKey user now r).pk) ?_
    intro r hr
    cases user <;> exact hr
  | @change i now pk user form r _ hcall hlock hclean hcalls hkeys =>
    rw [hkeys]
    obtain ⟨hpk, r₀, hr₀, hsame⟩ := hs.snapshot _ _ _ _ _ hcall
    intro x hx hk
    obtain ⟨y, hy, rfl⟩ := List.mem_map.mp hx
    split at hk
    · next hypk =>
      rw [if_pos hypk]
      obtain rfl : pk = k := hpk.symm.trans hk
      -- the row is revoked, so by the guard the form was read after that
      intro hnone
      exact h y hy hypk (hG _ _ _ _ _ rfl hcall hlock hclean hnone y hy hypk)
    · rw [if_neg ‹_›]
      exact h y hy hk

/-- **Step lemma.** Under the guard every step keeps the invariant. -/
theorem inv_step {clean : Row → Bool} {k : ℕ} {raw : Str} {s t : State} {l : Label}
    (hs : Inv k raw s) (hG : FreshForms clean k s l) (heff : Effect clean s l t) :
    Inv k raw t := by
  have hkept : RevokeReturned k s → KeyRevoked k t.db.keys :=
    fun h => keyRevoked_step hs hG heff (hs.revoked h)
  cases heff with
  | start hnew =>
    have hread : ∀ r, Phase.started ≠ .read r := by simp
    refine hs.frame rfl ?_ (revokeReturned_of_update rfl (by simp))
    exact reads_of_update rfl hread
  | env hcalls hkeys =>
    refine hs.frame hkeys ?_ ?_
    · exact fun j pk user form r h => Or.inl (hcalls ▸ h)
    · rintro ⟨j, user, h⟩
      exact ⟨j, user, hcalls ▸ h⟩
  | quiet hcall hcalls hkeys hquiet =>
    obtain ⟨hread, hrevoked, -⟩ := hquiet.spec
    refine hs.frame hkeys ?_ (revokeReturned_of_update hcalls hrevoked)
    exact reads_of_update hcalls hread
  | read hcall hr hpk =>
    refine hs.frame rfl ?_ (revokeReturned_of_update rfl (by simp))
    intro j pk' user' form' r' h
    rcases calls_of_update rfl h with ⟨-, heq⟩ | ⟨-, h'⟩
    · cases heq
      exact Or.inr ⟨hr, hpk⟩
    · exact Or.inl h'
  | @accept i now user header r ph' hcall hok hread =>
    refine hs.frame rfl ?_ ?_
    · exact reads_of_update rfl hread
    · rintro ⟨j, user', h⟩
      rcases calls_of_update rfl h with ⟨-, heq⟩ | ⟨-, h'⟩
      · cases heq
      · exact ⟨j, user', h'⟩
  | stamp hcall hcalls hkeys =>
    refine hs.rewrite hkeys ?_ ?_ fun h => hkept (revokeReturned_of_update hcalls (by simp) h)
    · intro x _
      split
      · exact ⟨rfl, rfl, rfl, rfl⟩
      · exact .refl x
    · exact reads_of_update hcalls (by simp)
  | @revoke i now pk user r _ hcall hcalls hkeys =>
    refine hs.rewrite hkeys ?_ ?_ ?_
    · intro x _
      split
      · exact revokeFields_sameKey user now x
      · exact .refl x
    · exact reads_of_update hcalls (by simp)
    · rintro ⟨j, user', h⟩
      rcases calls_of_update hcalls h with ⟨-, heq⟩ | ⟨-, h'⟩
      · -- this call's own write
        cases heq
        intro x hx hk
        rw [hkeys] at hx
        obtain ⟨y, hy, rfl⟩ := List.mem_map.mp hx
        split at hk
        · rw [if_pos ‹_›]
          exact Option.some_ne_none now
        · exact absurd hk ‹_›
      · exact hkept ⟨j, user', h'⟩
  | @delete i now pk user r _ hcall hcalls hkeys =>
    refine hs.rewrite hkeys ?_ ?_ fun h => hkept (revokeReturned_of_update hcalls (by simp) h)
    · intro x _
      split
      · exact deleteFields_sameKey user now x
      · exact .refl x
    · exact reads_of_update hcalls (by simp)
  | @change i now pk user form r _ hcall hlock hclean hcalls hkeys =>
    refine hs.rewrite hkeys ?_ ?_ fun h => hkept (revokeReturned_of_update hcalls (by simp) h)
    · -- the instance has the key columns of the row it is written to
      obtain ⟨hpk, r₀, hr₀, hsame⟩ := hs.snapshot _ _ _ _ _ hcall
      intro x hx
      split
      · next hxpk =>
        rw [hs.table.pk_inj x hx r₀ hr₀ (by rw [hxpk, ← hpk, hsame.pk])]
        exact hsame.trans ⟨rfl, rfl, rfl, rfl⟩
      · exact .refl x
    · exact reads_of_update hcalls (by simp)

/-! ## Revocation is permanent -/

/-- The raw key of a revoked key is refused. -/
theorem Inv.refuses {k : ℕ} {raw : Str} {s : State} (hs : Inv k raw s)
    (hk : KeyRevoked k s.db.keys) {x : ℕ × Row} :
    ApiKey.authenticate s.db (some raw) ≠ .ok (some x) := by
  intro hauth
  obtain ⟨r, hr, hpk, hsecret⟩ := hs.key
  simp only [ApiKey.authenticate] at hauth
  split at hauth
  · cases hauth
  · split at hauth
    · cases hauth
    · rcases hfind : lookup s.db.keys (raw.take 8) with _ | r'
      · simp [hfind] at hauth
      · obtain ⟨hr', hfirst, -, hfresh⟩ := lookup_some hfind
        rw [← hsecret, ← hs.table.prefix_eq r hr] at hfirst
        obtain rfl := hs.table.prefix_inj r' hr' r hr hfirst
        exact hk r' hr' hpk hfresh

/-- The key is revoked and this call, if it presents the raw key, has not
succeeded. -/
structure Refused (k : ℕ) (raw : Str) (i : ℕ) (s : State) : Prop where
  /-- the invariant -/
  inv : Inv k raw s
  /-- the key is revoked -/
  revoked : KeyRevoked k s.db.keys
  /-- the call has not succeeded -/
  failed : ∀ ph, s.calls i = some (.authenticate (some raw), ph) → ph.Succeeded = false

/-- **Step lemma.** Once the key is revoked, no step makes the call succeed. -/
theorem refused_step {clean : Row → Bool} {k i : ℕ} {raw : Str} {s t : State} {l : Label}
    (hs : Refused k raw i s) (hG : FreshForms clean k s l)
    (h : (machine clean).step s l = some t) : Refused k raw i t := by
  have heff := effect_of_step h
  refine ⟨inv_step hs.inv hG heff, keyRevoked_step hs.inv hG heff hs.revoked, ?_⟩
  intro ph hph
  -- a call in a phase that does not count as success, or another call
  have moved : ∀ {j : ℕ} {c : Call} {ph' : Phase},
      t.calls = Function.update s.calls j (some (c, ph')) →
      (c = .authenticate (some raw) → ph'.Succeeded = false) → ph.Succeeded = false := by
    intro j c ph' hcalls hfail
    rcases calls_of_update hcalls hph with ⟨-, heq⟩ | ⟨-, hph'⟩
    · cases heq
      exact hfail rfl
    · exact hs.failed ph hph'
  cases heff with
  | start hnew => exact moved rfl fun _ => rfl
  | env hcalls hkeys => exact hs.failed ph (hcalls ▸ hph)
  | quiet hcall hcalls hkeys hquiet => exact moved hcalls fun _ => hquiet.spec.2.2
  | read hcall hr hpk => exact moved rfl fun _ => rfl
  | accept hcall hok hread =>
    apply moved rfl
    rintro heq
    cases heq
    exact absurd hok (hs.inv.refuses hs.revoked)
  | @stamp j now user c r _ hcall hcalls hkeys =>
    rcases calls_of_update hcalls hph with ⟨rfl, heq⟩ | ⟨-, hph'⟩
    · cases heq
      cases hs.failed _ hcall
    · exact hs.failed ph hph'
  | revoke hcall hcalls hkeys => exact moved hcalls (by simp)
  | delete hcall hcalls hkeys => exact moved hcalls (by simp)
  | change hcall hlock hclean hcalls hkeys => exact moved hcalls (by simp)

/-- **Revocation is permanent** in every run in which no form is saved that was
read before the revocation: once a `revoke` on the key has returned
`(True, False)`, no `authenticate` that starts afterwards with its raw key
succeeds. -/
theorem revocation_permanent_of_freshForms (clean : Row → Bool) (db : Db) (hdb : Table db.keys)
    (row : Row) (hrow : row ∈ db.keys) (ls₁ ls₂ : List Label) (s t : State)
    (hG : (machine clean).Meets (FreshForms clean row.pk) (init db) (ls₁ ++ ls₂))
    (h₁ : (machine clean).run (init db) ls₁ = some s)
    (h₂ : (machine clean).run s ls₂ = some t) : StaysRevoked row.pk row.secret s t := by
  intro hreturned i ph hnew hph
  obtain ⟨hG₁, hG₂⟩ := Machine.meets_append hG h₁
  have hs : Inv row.pk row.secret s :=
    Machine.run_invariant (fun hI hg hstep => inv_step hI hg (effect_of_step hstep))
      (inv_init hdb hrow) hG₁ h₁
  have hstart : Refused row.pk row.secret i s := by
    refine ⟨hs, hs.revoked hreturned, ?_⟩
    intro ph' hph'
    rw [hnew] at hph'
    cases hph'
  exact (Machine.run_invariant refused_step hstart hG₂ h₂).failed ph hph

/-- One key. -/
def oneKey : Db where
  keys := [⟨0, 7, "ci".toList, "aaaaaaaa".toList, "aaaaaaaa-1".toList, none, none, true, none,
    none, 0, 0⟩]
  users := fun _ => true
  nextPk := 1
  debounce := fun _ => false

theorem table_oneKey : Table oneKey.keys := by
  refine ⟨?_, ?_, ?_⟩ <;> decide

/-- A call to `revoke`. -/
def revokeCall : List Label :=
  [.start 1 (.revoke 0 7), .advance 1 2, .advance 1 3]

/-- A submission of the form, up to the read. -/
def openForm : List Label :=
  [.start 0 (.change 0 9 ⟨"ci-renamed".toList, true⟩), .advance 0 1]

/-- The form is saved; then the raw key is presented. -/
def saveThenPresent : List Label :=
  [.advance 0 4, .start 2 (.authenticate (some "aaaaaaaa-1".toList)), .advance 2 5]

/-- A form read before the revocation and saved after it restores the key: a
call that starts later still authenticates with the raw key. -/
theorem stale_form_restores_key :
    ¬ ∀ (clean : Row → Bool) (db : Db) (row : Row) (ls₁ ls₂ : List Label) (s t : State),
      Table db.keys → row ∈ db.keys → (machine clean).run (init db) ls₁ = some s →
        (machine clean).run s ls₂ = some t → StaysRevoked row.pk row.secret s t := by
  intro halways
  have hstays := halways (fun _ => true) oneKey _ (openForm ++ revokeCall) saveThenPresent _ _
    table_oneKey (List.mem_singleton_self _) rfl rfl
  cases hstays ⟨1, 7, rfl⟩ 2 _ rfl rfl

/-- A form read after the revocation meets the guard, and the raw key stays
refused. -/
theorem fresh_form_keeps_key_revoked :
    ∃ s t, (machine fun _ => true).run (init oneKey) revokeCall = some s ∧
      (machine fun _ => true).run s (openForm ++ saveThenPresent) = some t ∧
      RevokeReturned 0 s ∧ StaysRevoked 0 "aaaaaaaa-1".toList s t := by
  refine ⟨_, _, rfl, rfl, ⟨1, 7, rfl⟩, ?_⟩
  refine revocation_permanent_of_freshForms (fun _ => true) oneKey table_oneKey _
    (List.mem_singleton_self _) revokeCall (openForm ++ saveThenPresent) _ _ ?_ rfl rfl
  -- only the step that saves the form has something to show: it read the revoked row
  refine Machine.meets_cons ?_ rfl (Machine.meets_cons ?_ rfl (Machine.meets_cons ?_ rfl
    (Machine.meets_cons ?_ rfl (Machine.meets_cons ?_ rfl (Machine.meets_cons ?_ rfl
      (Machine.meets_cons ?_ rfl (Machine.meets_cons ?_ rfl trivial)))))))
  all_goals
    intro i now user form r hl hcall _ _ hnone
    cases hl
    try cases hcall
    try cases hnone

end Writers

end ApiKey

end DjangoBoilerplate
