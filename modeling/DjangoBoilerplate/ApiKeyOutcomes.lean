import DjangoBoilerplate.ApiKeyEndpoints

/-!
# One winner for each API key

Requests to revoke or delete a key race with each other; each of them has been let in before the
first is served. `APIKeyService` decides under the lock of the row, so of all requests for one key a
single one is told that it deleted the key, a single one that it revoked it, and none succeeds after
the deletion (`one_winner`).

The invariant is that the table bears out every answer given so far (`Inv`): what has been reported
deleted or revoked is so and stays so, and its primary key is not used again.
-/

namespace DjangoBoilerplate

namespace ApiKey

namespace Endpoints

variable {clean : Row → Bool}

/-! ## What stays -/

/-- The row under the primary key has the property, and no other will be put there. -/
def Settled (p : Row → Prop) (db : Db) (pk : ℕ) : Prop :=
  pk < db.nextPk ∧ ∀ r ∈ db.keys, r.pk = pk → p r

/-- The key has been deleted. -/
def Gone (db : Db) (pk : ℕ) : Prop := Settled (fun r => r.isActive = false) db pk

/-- The key has been revoked. -/
def Shut (db : Db) (pk : ℕ) : Prop := Settled (fun r => r.revokedAt.isSome = true) db pk

/-- What no step of the service undoes. -/
structure Grows (db db' : Db) : Prop where
  /-- primary keys are not used again -/
  next : db.nextPk ≤ db'.nextPk
  /-- and a row is a new one, or one that was there and no more alive -/
  rows : ∀ r' ∈ db'.keys, db.nextPk ≤ r'.pk ∨ ∃ r ∈ db.keys, r'.pk = r.pk ∧
    (r.isActive = false → r'.isActive = false) ∧
    (r.revokedAt.isSome = true → r'.revokedAt.isSome = true)

theorem Gone.mono {db db' : Db} {pk : ℕ} (h : Gone db pk) (hgrows : Grows db db') :
    Gone db' pk := by
  refine ⟨h.1.trans_le hgrows.next, ?_⟩
  intro r' hr' hpk
  rcases hgrows.rows r' hr' with hnew | ⟨r, hr, hsame, hactive, -⟩
  · exact absurd h.1 (by omega)
  · exact hactive (h.2 r hr (hsame.symm.trans hpk))

theorem Shut.mono {db db' : Db} {pk : ℕ} (h : Shut db pk) (hgrows : Grows db db') :
    Shut db' pk := by
  refine ⟨h.1.trans_le hgrows.next, ?_⟩
  intro r' hr' hpk
  rcases hgrows.rows r' hr' with hnew | ⟨r, hr, hsame, -, hrevoked⟩
  · exact absurd h.1 (by omega)
  · exact hrevoked (h.2 r hr (hsame.symm.trans hpk))

/-- Rewriting rows in place. -/
theorem Grows.map {db db' : Db} (f : Row → Row) (hnext : db'.nextPk = db.nextPk)
    (hkeys : db'.keys = db.keys.map f) (hpk : ∀ r, (f r).pk = r.pk)
    (hactive : ∀ r, r.isActive = false → (f r).isActive = false)
    (hrevoked : ∀ r, r.revokedAt.isSome = true → (f r).revokedAt.isSome = true) : Grows db db' := by
  refine ⟨hnext.ge, ?_⟩
  intro r' hr'
  rw [hkeys] at hr'
  obtain ⟨r, hr, rfl⟩ := List.mem_map.mp hr'
  exact .inr ⟨r, hr, hpk r, hactive r, hrevoked r⟩

theorem Grows.refl (db : Db) : Grows db db :=
  .map id rfl (by rw [List.map_id]) (fun _ => rfl) (fun _ h => h) (fun _ h => h)

theorem Stamped.grows {db db' : Db} (h : Stamped db db') : Grows db db' := by
  obtain ⟨hnext, f, hkeys, hf⟩ := h
  refine .map f hnext hkeys ?_ ?_ ?_
  · intro r
    rw [hf r]
  · intro r hr
    rw [hf r]
    exact hr
  · intro r hr
    rw [hf r]
    exact hr

/-- The columns the handlers write. -/
theorem grows_updateRow {db : Db} {pk : ℕ} {f : Row → Row} (hpk : ∀ r, (f r).pk = r.pk)
    (hactive : ∀ r, r.isActive = false → (f r).isActive = false)
    (hrevoked : ∀ r, r.revokedAt.isSome = true → (f r).revokedAt.isSome = true) :
    Grows db { db with keys := updateRow db.keys pk f } := by
  refine .map (fun r => if r.pk = pk then f r else r) rfl rfl ?_ ?_ ?_
  · intro r
    split
    · exact hpk r
    · rfl
  · intro r hr
    split
    · exact hactive r hr
    · exact hr
  · intro r hr
    split
    · exact hrevoked r hr
    · exact hr

theorem Served.grows {db db' : Db} {pk user now : ℕ} {e : Endpoint} {reply : Reply}
    (h : Served db pk user now e db' reply) : Grows db db' := by
  cases h with
  | deleted hr => exact grows_updateRow (fun _ => rfl) (fun _ _ => rfl) fun _ h => h
  | revoked hr hfresh => exact grows_updateRow (fun _ => rfl) (fun _ h => h) fun _ _ => rfl
  | alreadyRevoked hr hshut => exact .refl _
  | failed hreply => exact .refl _

theorem Effect.grows {s t : Site} {l : Label} (h : Effect s l t) : Grows s.db t.db := by
  cases h with
  | arrive hnew => exact .refl _
  | identify hi hdb huser => exact hdb.grows
  | permit hi hallows => exact .refl _
  | fail hi hopen hdb hreply => exact hdb.grows
  | serve hi hserved hreply => exact hserved.grows
  | @create user name createdBy gen now raw hfree =>
    refine ⟨Nat.le_succ _, ?_⟩
    intro r hr
    rcases List.mem_append.mp hr with hr | hr
    · exact .inr ⟨r, hr, rfl, fun h => h, fun h => h⟩
    · obtain rfl := List.mem_singleton.mp hr
      exact .inl le_rfl
  | other hrequests hdb => exact hdb.grows

/-- An answer is final. -/
theorem Effect.answered {s t : Site} {l : Label} (h : Effect s l t) {i : ℕ} {request : Request}
    {reply : Reply} (hi : s.requests i = some (request, .answered reply)) :
    t.requests i = some (request, .answered reply) := by
  have hgoto : ∀ {j : ℕ} {request' : Request} {phase phase' : Phase} {db : Db},
      s.requests j = some (request', phase) → (∀ reply, phase ≠ .answered reply) →
      ({ s with db := db }.goto j request' phase').requests i =
        some (request, .answered reply) := by
    intro j request' phase phase' db hj hopen
    have hne : i ≠ j := by
      rintro rfl
      rw [hi] at hj
      cases hj
      exact hopen reply rfl
    exact (Function.update_of_ne hne ..).trans hi
  cases h with
  | @arrive j request' hnew =>
    have hne : i ≠ j := by
      rintro rfl
      rw [hi] at hnew
      cases hnew
    exact (Function.update_of_ne hne ..).trans hi
  | identify hj hdb huser => exact hgoto hj (by simp)
  | permit hj hallows => exact hgoto hj (by simp)
  | fail hj hopen hdb hreply => exact hgoto hj hopen
  | serve hj hserved hreply => exact hgoto hj (by simp)
  | create raw hfree => exact hi
  | other hrequests hdb => rwa [hrequests]

/-- A success is an old one, or the handler has just run, and no other request has moved. -/
theorem Effect.success {s t : Site} {l : Label} (h : Effect s l t) {i : ℕ} {request : Request}
    {reply : Reply} (hi : t.requests i = some (request, .answered reply))
    (hreply : reply.success = true) :
    s.requests i = some (request, .answered reply) ∨
      (∃ user now, Served s.db request.pk user now request.endpoint t.db reply) ∧
        ∀ j ≠ i, t.requests j = s.requests j := by
  cases h with
  | arrive hnew =>
    rcases update_eq_some hi with ⟨-, heq⟩ | ⟨-, hi⟩
    · cases heq
    · exact .inl hi
  | identify hj hdb huser =>
    rcases update_eq_some hi with ⟨-, heq⟩ | ⟨-, hi⟩
    · cases heq
    · exact .inl hi
  | permit hj hallows =>
    rcases update_eq_some hi with ⟨-, heq⟩ | ⟨-, hi⟩
    · cases heq
    · exact .inl hi
  | fail hj hopen hdb hfailed =>
    rcases update_eq_some hi with ⟨-, heq⟩ | ⟨-, hi⟩
    · cases heq
      rw [hfailed] at hreply
      cases hreply
    · exact .inl hi
  | serve hj hserved hsuccess =>
    rcases update_eq_some hi with ⟨rfl, heq⟩ | ⟨-, hi⟩
    · cases heq
      exact .inr ⟨⟨_, _, hserved⟩, fun k hk => Function.update_of_ne hk ..⟩
    · exact .inl hi
  | create raw hfree => exact .inl hi
  | other hrequests hdb => exact .inl (hrequests ▸ hi)

/-- No handler succeeds on a key that is deleted, -/
theorem Served.not_gone {db db' : Db} {pk user now : ℕ} {e : Endpoint} {reply : Reply}
    (h : Served db pk user now e db' reply) (hreply : reply.success = true) : ¬ Gone db pk := by
  have hfound : ∀ {r : Row}, activeByPk db.keys pk = some r → ¬ Gone db pk := by
    intro r hr hgone
    obtain ⟨hmem, hpk, hactive⟩ := activeByPk_some hr
    rw [hgone.2 r hmem hpk] at hactive
    cases hactive
  cases h with
  | deleted hr => exact hfound hr
  | revoked hr hfresh => exact hfound hr
  | alreadyRevoked hr hshut => exact hfound hr
  | failed hfailed =>
    rw [hfailed] at hreply
    cases hreply

/-- and none revokes a key that is revoked. -/
theorem Served.not_shut {db db' : Db} {pk user now : ℕ} {e : Endpoint}
    (h : Served db pk user now e db' .revoked) : ¬ Shut db pk := by
  intro hshut
  cases h with
  | @revoked r hr hfresh =>
    obtain ⟨hmem, hpk, -⟩ := activeByPk_some hr
    have hsome : r.revokedAt.isSome = true := hshut.2 r hmem hpk
    rw [hfresh] at hsome
    cases hsome
  | failed hfailed => cases hfailed

/-! ## The table -/

/-- The constraints of the table, and the sequence is past every primary key. -/
structure Sound (db : Db) : Prop where
  /-- the constraints -/
  table : Table db.keys
  /-- the sequence -/
  below : ∀ r ∈ db.keys, r.pk < db.nextPk

theorem Sound.map {db db' : Db} (h : Sound db) {f : Row → Row} (hnext : db'.nextPk = db.nextPk)
    (hkeys : db'.keys = db.keys.map f) (hf : ∀ r, SameKey r (f r)) : Sound db' := by
  refine ⟨?_, ?_⟩
  · rw [hkeys]
    exact h.table.map fun r _ => hf r
  · intro r' hr'
    rw [hkeys] at hr'
    obtain ⟨r, hr, rfl⟩ := List.mem_map.mp hr'
    rw [(hf r).pk, hnext]
    exact h.below r hr

theorem Sound.updateRow {db : Db} (h : Sound db) {pk : ℕ} {f : Row → Row}
    (hf : ∀ r, SameKey r (f r)) : Sound { db with keys := ApiKey.updateRow db.keys pk f } := by
  refine h.map rfl rfl ?_
  intro r
  split
  · exact hf r
  · exact .refl r

theorem Stamped.sound {db db' : Db} (h : Stamped db db') (hdb : Sound db) : Sound db' := by
  obtain ⟨hnext, f, hkeys, hf⟩ := h
  refine hdb.map hnext hkeys ?_
  intro r
  rw [hf r]
  exact ⟨rfl, rfl, rfl, rfl⟩

theorem Served.sound {db db' : Db} {pk user now : ℕ} {e : Endpoint} {reply : Reply}
    (h : Served db pk user now e db' reply) (hdb : Sound db) : Sound db' := by
  cases h with
  | deleted hr => exact hdb.updateRow (deleteFields_sameKey _ _)
  | revoked hr hfresh => exact hdb.updateRow (revokeFields_sameKey _ _)
  | alreadyRevoked hr hshut => exact hdb
  | failed hreply => exact hdb

theorem Effect.sound {s t : Site} {l : Label} (h : Effect s l t) (hs : Sound s.db) :
    Sound t.db := by
  cases h with
  | arrive hnew => exact hs
  | identify hi hdb huser => exact hdb.sound hs
  | permit hi hallows => exact hs
  | fail hi hopen hdb hreply => exact hdb.sound hs
  | serve hi hserved hreply => exact hserved.sound hs
  | create raw hfree =>
    refine ⟨hs.table.snoc ?_ ?_ rfl, ?_⟩
    · intro r hr
      exact (hs.below r hr).ne
    · intro r hr
      exact keyPrefix_ne_of_free hfree hr
    · intro r hr
      rcases List.mem_append.mp hr with hr | hr
      · exact (hs.below r hr).trans (Nat.lt_succ_self _)
      · obtain rfl := List.mem_singleton.mp hr
        exact Nat.lt_succ_self _
  | other hrequests hdb => exact hdb.sound hs

/-- An `UPDATE` settles for good what it writes to an active row. -/
theorem settled_updateRow {db : Db} {pk : ℕ} {f : Row → Row} {r : Row} {p : Row → Prop}
    (hdb : Sound db) (hr : activeByPk db.keys pk = some r) (hf : ∀ r, p (f r)) :
    Settled p { db with keys := updateRow db.keys pk f } pk := by
  obtain ⟨hmem, hpk, -⟩ := activeByPk_some hr
  refine ⟨hpk ▸ hdb.below _ hmem, ?_⟩
  intro r' hr' hpk'
  obtain ⟨r₀, hr₀, rfl⟩ := List.mem_map.mp hr'
  by_cases hsame : r₀.pk = pk
  · rw [if_pos hsame]
    exact hf r₀
  · rw [if_neg hsame] at hpk'
    exact absurd hpk' hsame

/-- What a handler reports is in the table: the key is deleted, -/
theorem Served.gone {db db' : Db} {pk user now : ℕ} {e : Endpoint} (hdb : Sound db)
    (h : Served db pk user now e db' .deleted) : Gone db' pk := by
  cases h with
  | deleted hr => exact settled_updateRow hdb hr fun _ => rfl
  | failed hfailed => cases hfailed

/-- or it is revoked. -/
theorem Served.shut {db db' : Db} {pk user now : ℕ} {e : Endpoint} (hdb : Sound db)
    (h : Served db pk user now e db' .revoked) : Shut db' pk := by
  cases h with
  | revoked hr hfresh => exact settled_updateRow hdb hr fun _ => rfl
  | failed hfailed => cases hfailed

/-- A row that is revoked after the handler was so before, or is the one it has revoked. -/
theorem Served.revoked_rows {db db' : Db} {pk user now : ℕ} {e : Endpoint} {reply : Reply}
    (h : Served db pk user now e db' reply) {r' : Row} (hr' : r' ∈ db'.keys)
    (hrevoked : r'.revokedAt.isSome = true) :
    (∃ r ∈ db.keys, r.pk = r'.pk ∧ r.revokedAt.isSome = true) ∨ reply = .revoked ∧ r'.pk = pk := by
  cases h with
  | deleted hr =>
    obtain ⟨r, hr, rfl⟩ := List.mem_map.mp hr'
    refine .inl ⟨r, hr, ?_⟩
    split at hrevoked
    · next hpk =>
      rw [if_pos hpk]
      exact ⟨rfl, hrevoked⟩
    · next hpk =>
      rw [if_neg hpk]
      exact ⟨rfl, hrevoked⟩
  | revoked hr hfresh =>
    obtain ⟨r, hr, rfl⟩ := List.mem_map.mp hr'
    by_cases hpk : r.pk = pk
    · rw [if_pos hpk]
      exact .inr ⟨rfl, hpk⟩
    · rw [if_neg hpk] at hrevoked ⊢
      exact .inl ⟨r, hr, rfl, hrevoked⟩
  | alreadyRevoked hr hshut => exact .inl ⟨r', hr', rfl, hrevoked⟩
  | failed hfailed => exact .inl ⟨r', hr', rfl, hrevoked⟩

/-- "Already revoked" is said of a row that is. -/
theorem Served.already {db db' : Db} {pk user now : ℕ} {e : Endpoint}
    (h : Served db pk user now e db' .alreadyRevoked) :
    ∃ r ∈ db.keys, r.pk = pk ∧ r.revokedAt.isSome = true := by
  cases h with
  | alreadyRevoked hr hshut =>
    obtain ⟨hmem, hpk, -⟩ := activeByPk_some hr
    exact ⟨_, hmem, hpk, hshut⟩
  | failed hfailed => cases hfailed

/-! ## The answers -/

/-- The key was revoked when the service started, or a request was told that it revoked it. -/
def RevokedBy (s₀ s : Site) (pk : ℕ) : Prop :=
  (∃ r ∈ s₀.db.keys, r.pk = pk ∧ r.revokedAt.isSome = true) ∨
    ∃ i request, s.requests i = some (request, .answered .revoked) ∧ request.pk = pk

/-- At most one request for a key gets this answer. -/
def Once (reply : Reply) (s : Site) : Prop :=
  ∀ i j request request', s.requests i = some (request, .answered reply) →
    s.requests j = some (request', .answered reply) → request.pk = request'.pk → i = j

/-- The service starts without requests, over a table whose constraints hold. -/
structure Start (s : Site) : Prop where
  /-- no request -/
  requests : ∀ i, s.requests i = none
  /-- the constraints of the table -/
  sound : Sound s.db

/-- The table and the answers agree. -/
structure Inv (s₀ s : Site) : Prop where
  /-- the constraints of the table -/
  sound : Sound s.db
  /-- what was reported deleted is -/
  gone : ∀ i request, s.requests i = some (request, .answered .deleted) → Gone s.db request.pk
  /-- what was reported revoked is -/
  shut : ∀ i request, s.requests i = some (request, .answered .revoked) → Shut s.db request.pk
  /-- a deletion is reported once -/
  deletedOnce : Once .deleted s
  /-- and so is a revocation -/
  revokedOnce : Once .revoked s
  /-- a revoked key was so from the start, or its revocation was reported -/
  revokedBy : ∀ r ∈ s.db.keys, r.revokedAt.isSome = true → RevokedBy s₀ s r.pk
  /-- which an answer that it is revoked already can rely on -/
  already : ∀ i request, s.requests i = some (request, .answered .alreadyRevoked) →
    RevokedBy s₀ s request.pk

theorem Start.inv {s : Site} (h : Start s) : Inv s s where
  sound := h.sound
  gone i request hi := by simp [h.requests] at hi
  shut i request hi := by simp [h.requests] at hi
  deletedOnce i j request request' hi := by simp [h.requests] at hi
  revokedOnce i j request request' hi := by simp [h.requests] at hi
  revokedBy r hr hrevoked := .inl ⟨r, hr, rfl, hrevoked⟩
  already i request hi := by simp [h.requests] at hi

theorem RevokedBy.step {s₀ s t : Site} {l : Label} {pk : ℕ} (h : RevokedBy s₀ s pk)
    (heff : Effect s l t) : RevokedBy s₀ t pk := by
  obtain h | ⟨i, request, hi, hpk⟩ := h
  · exact .inl h
  · exact .inr ⟨i, request, heff.answered hi, hpk⟩

/-- An answer that rules itself out is given once. -/
theorem Once.step {s t : Site} {l : Label} {reply : Reply} (h : Once reply s) (heff : Effect s l t)
    (hreply : reply.success = true)
    (hblocked : ∀ i request, s.requests i = some (request, .answered reply) →
      ∀ user now e db, ¬ Served s.db request.pk user now e db reply) : Once reply t := by
  intro i j request request' hi hj hpk
  by_contra hne
  rcases heff.success hi hreply with hi' | ⟨⟨user, now, hserved⟩, hothers⟩
  · rcases heff.success hj hreply with hj' | ⟨⟨user, now, hserved⟩, -⟩
    · exact hne (h i j request request' hi' hj' hpk)
    · exact hblocked i request hi' user now _ _ (hpk ▸ hserved)
  · -- only `i` has moved, so `j` had its answer before
    rw [hothers j (Ne.symm hne)] at hj
    exact hblocked j request' hj user now _ _ (hpk ▸ hserved)

/-- A row that is revoked was revoked before, or a request has just been told so. -/
theorem revokedBy_step {s₀ s t : Site} {l : Label} (hs : Inv s₀ s) (heff : Effect s l t) {r : Row}
    (hr : r ∈ t.db.keys) (hrevoked : r.revokedAt.isSome = true) : RevokedBy s₀ t r.pk := by
  have hstamped : Stamped s.db t.db → RevokedBy s₀ t r.pk := by
    rintro ⟨-, f, hkeys, hf⟩
    rw [hkeys] at hr
    obtain ⟨r₀, hr₀, rfl⟩ := List.mem_map.mp hr
    rw [hf r₀] at hrevoked ⊢
    exact (hs.revokedBy r₀ hr₀ hrevoked).step heff
  cases id heff with
  | arrive hnew => exact hstamped (.refl _)
  | identify hi hdb huser => exact hstamped hdb
  | permit hi hallows => exact hstamped (.refl _)
  | fail hi hopen hdb hreply => exact hstamped hdb
  | serve hi hserved hreply =>
    rcases hserved.revoked_rows hr hrevoked with ⟨r₀, hr₀, hpk, hrevoked₀⟩ | ⟨rfl, hpk⟩
    · exact hpk ▸ (hs.revokedBy r₀ hr₀ hrevoked₀).step heff
    · exact .inr ⟨_, _, Function.update_self .., hpk.symm⟩
  | create raw hfree =>
    rcases List.mem_append.mp hr with hr | hr
    · exact (hs.revokedBy r hr hrevoked).step heff
    · obtain rfl := List.mem_singleton.mp hr
      cases hrevoked
  | other hrequests hdb => exact hstamped hdb

/-- **Step lemma.** -/
theorem Inv.step {s₀ s t : Site} {l : Label} (hs : Inv s₀ s) (heff : Effect s l t) : Inv s₀ t where
  sound := heff.sound hs.sound
  gone i request hi := by
    rcases heff.success hi rfl with hi | ⟨⟨user, now, hserved⟩, -⟩
    · exact (hs.gone i request hi).mono heff.grows
    · exact hserved.gone hs.sound
  shut i request hi := by
    rcases heff.success hi rfl with hi | ⟨⟨user, now, hserved⟩, -⟩
    · exact (hs.shut i request hi).mono heff.grows
    · exact hserved.shut hs.sound
  deletedOnce := hs.deletedOnce.step heff rfl fun i request hi _ _ _ _ hserved =>
    hserved.not_gone rfl (hs.gone i request hi)
  revokedOnce := hs.revokedOnce.step heff rfl fun i request hi _ _ _ _ hserved =>
    hserved.not_shut (hs.shut i request hi)
  revokedBy r hr hrevoked := revokedBy_step hs heff hr hrevoked
  already i request hi := by
    rcases heff.success hi rfl with hi | ⟨⟨user, now, hserved⟩, -⟩
    · exact (hs.already i request hi).step heff
    · obtain ⟨r, hr, hpk, hrevoked⟩ := hserved.already
      exact hpk ▸ (hs.revokedBy r hr hrevoked).step heff

theorem inv_run {s₀ s t : Site} {ls : List Label} (hs : Inv s₀ s)
    (hrun : (machine clean).run s ls = some t) : Inv s₀ t :=
  Machine.run_invariant' (M := machine clean) (I := Inv s₀)
    (fun hI hl => hI.step (effect_of_step hl)) hs hrun

/-- After the deletion of a key has been reported, every success for it is an old one. -/
theorem success_before_delete {s₀ m t : Site} {ls : List Label} {i j : ℕ}
    {request request' : Request} {reply : Reply} (hm : Inv s₀ m)
    (hi : m.requests i = some (request, .answered .deleted))
    (hrun : (machine clean).run m ls = some t)
    (hj : t.requests j = some (request', .answered reply)) (hreply : reply.success = true)
    (hpk : request'.pk = request.pk) : m.requests j = some (request', .answered reply) := by
  have hinv : Gone t.db request.pk ∧ (t.requests j = some (request', .answered reply) →
      m.requests j = some (request', .answered reply)) := by
    refine Machine.run_invariant' (M := machine clean) (I := fun s => Gone s.db request.pk ∧
      (s.requests j = some (request', .answered reply) →
        m.requests j = some (request', .answered reply))) ?_ ⟨hm.gone i request hi, id⟩ hrun
    rintro s l u ⟨hgone, hold⟩ hl
    have heff := effect_of_step hl
    refine ⟨hgone.mono heff.grows, ?_⟩
    intro hj
    rcases heff.success hj hreply with hj | ⟨⟨user, now, hserved⟩, -⟩
    · exact hold hj
    · exact absurd (hpk ▸ hgone) (hserved.not_gone hreply)
  exact hinv.2 hj

/-- The answers of two states of a run, one after the other, about one key. -/
structure OneWinner (s₀ m t : Site) : Prop where
  /-- one request is told that it deleted the key, -/
  deletedOnce : Once .deleted t
  /-- one that it revoked it, -/
  revokedOnce : Once .revoked t
  /-- another that it is revoked already only if it was from the start or one was told so, -/
  already : ∀ i request, t.requests i = some (request, .answered .alreadyRevoked) →
    RevokedBy s₀ t request.pk
  /-- and after the deletion none succeeds -/
  afterDelete : ∀ i j request request' reply,
    m.requests i = some (request, .answered .deleted) →
    t.requests j = some (request', .answered reply) → reply.success = true →
    request'.pk = request.pk → m.requests j = some (request', .answered reply)

/-- **Of all requests for a key, in every interleaving, at most one is told that it deleted it and
at most one that it revoked it; none succeeds once the deletion has been reported.** -/
theorem one_winner (clean : Row → Bool) (s₀ : Site) (hs₀ : Start s₀) (ls ks : List Label)
    (m t : Site) (hm : (machine clean).run s₀ ls = some m)
    (ht : (machine clean).run m ks = some t) : OneWinner s₀ m t := by
  have hinv : Inv s₀ m := inv_run hs₀.inv hm
  have hinv' : Inv s₀ t := inv_run hinv ht
  refine ⟨hinv'.deletedOnce, hinv'.revokedOnce, hinv'.already, ?_⟩
  intro i j request request' reply hi hj hreply hpk
  exact success_before_delete hinv hi ht hj hreply hpk

/-- A colleague, by token, asks for the same, -/
def revokeByToken : Request := ⟨.revoke, 0, none, some (some 1)⟩

/-- and a third request is to delete the key. -/
def deleteByToken : Request := ⟨.delete, 0, none, some (some 1)⟩

/-- All three are let in before the first is served. -/
def threeAdmitted : List Label :=
  [.arrive 0 revokeItself, .arrive 1 revokeByToken, .arrive 2 deleteByToken,
    .authenticate 0 [.jwt, .apiKey] 5, .authenticate 1 [.jwt, .apiKey] 5,
    .authenticate 2 [.jwt, .apiKey] 5, .authorize 0, .authorize 1, .authorize 2]

theorem start_oneKeySite : Start oneKeySite where
  requests _ := rfl
  sound := by
    refine ⟨⟨?_, ?_, ?_⟩, ?_⟩ <;> decide

/-- The token wins, the owner hears that the key is revoked already, and the key is deleted. -/
theorem three_requests_one_key : ∃ m t,
    (machine fun _ => true).run oneKeySite (threeAdmitted ++ [.serve 1 6, .serve 0 7, .serve 2 8]) =
      some m ∧
    m.requests 0 = some (revokeItself, .answered .alreadyRevoked) ∧
    m.requests 1 = some (revokeByToken, .answered .revoked) ∧
    m.requests 2 = some (deleteByToken, .answered .deleted) ∧
    (machine fun _ => true).run m [.arrive 3 revokeByToken, .authenticate 3 [.jwt] 9, .authorize 3,
      .serve 3 9] = some t ∧
    t.requests 3 = some (revokeByToken, .answered .notFound) ∧ OneWinner oneKeySite m t := by
  refine ⟨_, _, rfl, rfl, rfl, rfl, rfl, rfl, ?_⟩
  exact one_winner (fun _ => true) oneKeySite start_oneKeySite
    (threeAdmitted ++ [.serve 1 6, .serve 0 7, .serve 2 8])
    [.arrive 3 revokeByToken, .authenticate 3 [.jwt] 9, .authorize 3, .serve 3 9] _ _ rfl rfl

end Endpoints

end ApiKey

end DjangoBoilerplate
