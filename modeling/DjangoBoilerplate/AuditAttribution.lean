import DjangoBoilerplate.AuditService

/-!
# Who did what: attribution over whole runs

Every call of the service is attributed to its user, in every run in which the data of a
call names neither another creator nor another primary key (`attributed_of_guard`).

The first condition is on the state before the call, since an earlier `create` leaves its
stamp in the caller's `dict`: two users who are handed one `dict` get one creator.
-/

namespace DjangoBoilerplate

namespace Audit

open Cascade

variable {M F X : Type}

/-! ## Entries -/

/-- The creator an entry names. -/
def Entry.creator : Entry F X → Option (Option ℕ)
  | .createdBy u => some u
  | .createdById u => some u
  | _ => none

/-- The primary key an entry names. -/
def Entry.key : Entry F X → Option (Option ℕ)
  | .id pk => some pk
  | _ => none

theorem Entry.creator_eq_some {e : Entry F X} {u : Option ℕ} :
    e.creator = some u ↔ e = .createdBy u ∨ e = .createdById u := by
  cases e <;> simp [Entry.creator]

/-- Stamped data names a creator. -/
theorem exists_createdBy (data : Data F X) (user : ℕ) :
    ∃ u, .createdBy u ∈ applyAuditFields data user := by
  rw [applyAuditFields]
  split
  · next h =>
    obtain ⟨e, he, hname⟩ := List.any_eq_true.mp h
    cases e with
    | createdBy u => exact ⟨u, he⟩
    | _ => cases hname
  · exact ⟨some user, List.mem_append_right _ (List.mem_singleton_self _)⟩

/-- Stamping adds at most the acting user, -/
theorem mem_applyAuditFields {data : Data F X} {user : ℕ} {e : Entry F X}
    (h : e ∈ applyAuditFields data user) : e ∈ data ∨ e = .createdBy (some user) := by
  rw [applyAuditFields] at h
  split at h
  · exact Or.inl h
  · exact (List.mem_append.mp h).imp id List.mem_singleton.mp

/-- and takes nothing away. -/
theorem subset_applyAuditFields (data : Data F X) (user : ℕ) :
    data ⊆ applyAuditFields data user := by
  rw [applyAuditFields]
  split
  · exact List.Subset.refl data
  · exact List.subset_append_left _ _

/-! ## Setting attributes -/

section Instances

variable [DecidableEq F]

section Setattr

variable {β : Type} (π : Instance M F X → β) {σ : Entry F X → Option β}
  (hset : ∀ i e, π (i.setattr e) = (σ e).getD (π i)) {l : List (Entry F X)} {c : β}
include hset

/-- A column keeps a value no entry changes, -/
theorem foldl_setattr_of_eq (hall : ∀ e ∈ l, ∀ v, σ e = some v → v = c) {i : Instance M F X}
    (hi : π i = c) : π (l.foldl Instance.setattr i) = c := by
  induction l generalizing i with
  | nil => exact hi
  | cons e l ih =>
    obtain ⟨hhead, hrest⟩ := List.forall_mem_cons.mp hall
    rw [List.foldl_cons]
    apply ih hrest
    rw [hset]
    cases he : σ e with
    | none => exact hi
    | some v => exact hhead v he

/-- and gets the one an entry gives it. -/
theorem foldl_setattr_of_mem (hall : ∀ e ∈ l, ∀ v, σ e = some v → v = c)
    (hmem : ∃ e ∈ l, (σ e).isSome = true) (i : Instance M F X) :
    π (l.foldl Instance.setattr i) = c := by
  induction l generalizing i with
  | nil =>
    obtain ⟨e, he, -⟩ := hmem
    cases he
  | cons e l ih =>
    obtain ⟨hhead, hrest⟩ := List.forall_mem_cons.mp hall
    rw [List.foldl_cons]
    cases he : σ e with
    | some v =>
      apply foldl_setattr_of_eq π hset hrest
      rw [hset, he]
      exact hhead v he
    | none =>
      obtain ⟨x, hx, hsome⟩ := hmem
      rcases List.mem_cons.mp hx with rfl | hx
      · rw [he] at hsome
        cases hsome
      · exact ih hrest ⟨x, hx, hsome⟩ _

end Setattr

theorem createdBy_setattr (i : Instance M F X) (e : Entry F X) :
    (i.setattr e).rest.createdBy = e.creator.getD i.rest.createdBy := by
  cases e <;> rfl

theorem pk_setattr (i : Instance M F X) (e : Entry F X) :
    (i.setattr e).pk = e.key.getD i.pk := by
  cases e <;> rfl

theorem model_setattr (i : Instance M F X) (e : Entry F X) :
    (i.setattr e).model = (none : Option M).getD i.model := by
  cases e <;> rfl

/-- No entry that names no key changes the key. -/
theorem pk_foldl_setattr {l : List (Entry F X)} (hall : ∀ e ∈ l, e.key = none)
    (i : Instance M F X) : (l.foldl Instance.setattr i).pk = i.pk := by
  refine foldl_setattr_of_eq (fun i => i.pk) pk_setattr ?_ rfl
  intro e he v hv
  rw [hall e he] at hv
  cases hv

theorem model_foldl_setattr (l : List (Entry F X)) (i : Instance M F X) :
    (l.foldl Instance.setattr i).model = i.model :=
  foldl_setattr_of_eq (fun i => i.model) model_setattr (fun _ _ _ hv => by cases hv) rfl

theorem model_construct (i : Instance M F X) (data : Data F X) :
    (construct i data).model = i.model := by
  rw [construct, model_foldl_setattr, model_foldl_setattr]

/-- The key is that of the entries which are set by name. -/
theorem pk_construct (i : Instance M F X) (data : Data F X) :
    (construct i data).pk = ((data.filter fun e => !e.isAttname).foldl Instance.setattr i).pk := by
  rw [construct, pk_foldl_setattr]
  intro e he
  obtain ⟨-, hatt⟩ := List.mem_filter.mp he
  cases e with
  | createdById u | updatedById u => rfl
  | _ => cases hatt

/-- Stamping leaves it alone. -/
theorem pk_construct_applyAuditFields (i : Instance M F X) (data : Data F X) (user : ℕ) :
    (construct i (applyAuditFields data user)).pk = (construct i data).pk := by
  rw [pk_construct, pk_construct, applyAuditFields]
  split
  · rfl
  · rw [List.filter_append, List.foldl_append]
    rfl

/-- The instance of a call that meets the guard is created by the acting user. -/
theorem createdBy_construct {data : Data F X} {user : ℕ} (i : Instance M F X)
    (hattname : ∀ u, .createdById u ∈ data → u = some user)
    (hname : (∀ u, .createdById u ∉ data) → ∀ u, .createdBy u ∈ data → u = some user) :
    (construct i (applyAuditFields data user)).rest.createdBy = some user := by
  have hid : ∀ u, .createdById u ∈ applyAuditFields data user → .createdById u ∈ data := by
    intro u hu
    rcases mem_applyAuditFields hu with hu | hu
    · exact hu
    · cases hu
  have hall : ∀ e ∈ (applyAuditFields data user).filter fun e => e.isAttname,
      ∀ v, e.creator = some v → v = some user := by
    intro e he v hv
    obtain ⟨hmem, hatt⟩ := List.mem_filter.mp he
    rcases Entry.creator_eq_some.mp hv with rfl | rfl
    · cases hatt
    · exact hattname v (hid v hmem)
  rw [construct]
  by_cases hsome : ∃ u, .createdById u ∈ data
  · -- `created_by_id` has the last word
    obtain ⟨u, hu⟩ := hsome
    apply foldl_setattr_of_mem (fun i => i.rest.createdBy) createdBy_setattr hall
    exact ⟨.createdById u, List.mem_filter.mpr ⟨subset_applyAuditFields data user hu, rfl⟩, rfl⟩
  · have hnone : ∀ u, .createdById u ∉ data := fun u hu => hsome ⟨u, hu⟩
    apply foldl_setattr_of_eq (fun i => i.rest.createdBy) createdBy_setattr hall
    obtain ⟨u, hu⟩ := exists_createdBy data user
    refine foldl_setattr_of_mem (fun i => i.rest.createdBy) createdBy_setattr ?_
      ⟨.createdBy u, List.mem_filter.mpr ⟨hu, rfl⟩, rfl⟩ _
    intro e he v hv
    obtain ⟨hmem, hatt⟩ := List.mem_filter.mp he
    rcases Entry.creator_eq_some.mp hv with rfl | rfl
    · rcases mem_applyAuditFields hmem with hmem | heq
      · exact hname hnone v hmem
      · cases heq
        rfl
    · cases hatt

end Instances

/-! ## Rows -/

/-- A row a soft delete leaves alone, or deactivates in the user's name. -/
def Touched (user : ℕ) (r r' : Row M F (Columns X)) : Prop :=
  r' = r ∨ (r'.key = r.key ∧ r'.isActive = false ∧ r'.updatedBy = some user)

theorem Touched.trans {user : ℕ} {r r' r'' : Row M F (Columns X)} (h : Touched user r r')
    (h' : Touched user r' r'') : Touched user r r'' := by
  rcases h' with rfl | ⟨hkey', hoff', hby'⟩
  · exact h
  · rcases h with rfl | ⟨hkey, -, -⟩
    · exact Or.inr ⟨hkey', hoff', hby'⟩
    · exact Or.inr ⟨hkey'.trans hkey, hoff', hby'⟩

theorem Touched.key_eq {user : ℕ} {r r' : Row M F (Columns X)} (h : Touched user r r') :
    r'.key = r.key := by
  rcases h with rfl | ⟨hkey, -, -⟩
  · rfl
  · exact hkey

/-- Every row is left alone or deactivated in the user's name. -/
def TouchedBy (user : ℕ) (s t : Store M F (Columns X)) : Prop :=
  ∃ g : Row M F (Columns X) → Row M F (Columns X),
    t.rows = s.rows.map g ∧ ∀ r, Touched user r (g r)

theorem TouchedBy.refl (user : ℕ) (s : Store M F (Columns X)) : TouchedBy user s s :=
  ⟨id, by simp, fun _ => Or.inl rfl⟩

theorem TouchedBy.trans {user : ℕ} {s t w : Store M F (Columns X)} (h : TouchedBy user s t)
    (h' : TouchedBy user t w) : TouchedBy user s w := by
  obtain ⟨g, hg, htouched⟩ := h
  obtain ⟨g', hg', htouched'⟩ := h'
  refine ⟨g' ∘ g, ?_, fun r => (htouched r).trans (htouched' (g r))⟩
  rw [hg', hg, List.map_map]

/-- A row a delete deactivates is stamped with its user. -/
theorem TouchedBy.updatedBy_eq {user : ℕ} {s t : Store M F (Columns X)}
    (h : TouchedBy user s t) {r r' : Row M F (Columns X)} (hr : r ∈ s.rows) (hr' : r' ∈ t.rows)
    (hkey : r'.key = r.key) (hon : r.isActive = true) (hoff : r'.isActive = false) :
    r'.updatedBy = some user := by
  obtain ⟨g, hg, htouched⟩ := h
  rw [hg] at hr'
  obtain ⟨r₀, hr₀, rfl⟩ := List.mem_map.mp hr'
  have htouch := htouched r₀
  obtain rfl : r₀ = r := s.eq_of_key_eq hr₀ hr (htouch.key_eq.symm.trans hkey)
  rcases htouch with heq | ⟨-, -, hby⟩
  · rw [heq, hon] at hoff
    cases hoff
  · exact hby

/-- The `UPDATE` of a soft delete. -/
theorem touchedBy_update {sch : Schema M F (Columns X)}
    (hbase : ∀ m, sch.hasUpdatedBy m = true) {user now : ℕ} {s : Store M F (Columns X)}
    {p : Row M F (Columns X) → Bool} :
    TouchedBy user s (s.update p (sch.deactivate (some user) now)
      (sch.deactivate_key (some user) now)) := by
  refine ⟨fun r => if p r then sch.deactivate (some user) now r else r, rfl, ?_⟩
  intro r
  by_cases hp : p r = true
  · simp only [hp, if_true]
    exact Or.inr ⟨rfl, rfl, by simp [Schema.deactivate, hbase]⟩
  · simp only [hp, Bool.false_eq_true, if_false]
    exact Or.inl rfl

section Rows

variable [DecidableEq M]

/-- A row that was not there before is the one that was inserted. -/
theorem eq_of_mem_insert {s t : Store M F (Columns X)} {r x : Row M F (Columns X)}
    (h : s.insert [r] = some t) (hx : x ∈ t.rows) (hnew : ∀ y ∈ s.rows, y.key ≠ x.key) :
    x = r := by
  rw [Store.insert] at h
  split at h
  · obtain rfl := Option.some.inj h
    rcases List.mem_append.mp hx with hx | hx
    · exact absurd rfl (hnew x hx)
    · exact List.mem_singleton.mp hx
  · cases h

/-- A row under a free key is inserted. -/
theorem insert_of_free {s : Store M F (Columns X)} {r : Row M F (Columns X)}
    (hfree : ∀ x ∈ s.rows, x.key ≠ r.key) :
    ∃ hnodup, s.insert [r] = some ⟨s.rows ++ [r], hnodup⟩ := by
  have hnodup : ((s.rows ++ [r]).map Row.key).Nodup := by
    rw [List.map_append, List.map_singleton, List.nodup_append]
    refine ⟨s.nodup, List.nodup_singleton _, ?_⟩
    intro k hk k' hk'
    obtain ⟨x, hx, rfl⟩ := List.mem_map.mp hk
    obtain rfl := List.mem_singleton.mp hk'
    exact hfree x hx
  exact ⟨hnodup, dif_pos hnodup⟩

/-- The row under the key of a saved instance, if there was one. -/
theorem mem_save {s : Store M F (Columns X)} {r x : Row M F (Columns X)} (hx : x ∈ s.rows)
    (hkey : x.key = r.key) : r ∈ (save s r).rows := by
  have hany : (s.rows.any fun x => x.key == r.key) = true :=
    List.any_eq_true.mpr ⟨x, hx, beq_iff_eq.mpr hkey⟩
  rw [save, if_pos hany]
  refine List.mem_map.mpr ⟨x, hx, ?_⟩
  rw [if_pos (beq_iff_eq.mpr hkey)]
  exact if_pos hkey

theorem found_eq_some {s : Store M F (Columns X)} {k : Key M} {activeOnly : Bool}
    {r : Row M F (Columns X)} (h : found s k activeOnly = some r) : r ∈ s.rows ∧ r.key = k := by
  have hmatch := List.find?_some h
  simp only [Bool.and_eq_true, beq_iff_eq] at hmatch
  obtain ⟨hkey, -⟩ := hmatch
  exact ⟨List.mem_of_find?_eq_some h, hkey⟩

section Delete

variable {sch : Schema M F (Columns X)} {cap : ℕ} {clean : Row M F (Columns X) → Bool}
  (hbase : ∀ m, sch.hasUpdatedBy m = true)
include hbase

/-- One step of the cascade. -/
theorem touchedBy_next {user now : ℕ} {w w' : Walk M F (Columns X)}
    (h : next sch cap (some user) now w = .step w') : TouchedBy user w.store w'.store := by
  cases stepsTo_of_next h with
  | update hstamp => exact touchedBy_update hbase
  | _ => exact .refl _ _

/-- The whole cascade. -/
theorem touchedBy_drive {user : ℕ} {now : ℕ → ℕ} :
    ∀ {fuel n : ℕ} {w w' : Walk M F (Columns X)},
      drive sch cap (some user) now fuel n w = some (.ok w') → TouchedBy user w.store w'.store := by
  intro fuel
  induction fuel with
  | zero =>
    intro n w w' h
    cases h
  | succ fuel ih =>
    intro n w w' h
    rw [drive] at h
    cases hnext : next sch cap (some user) (now n) w with
    | done =>
      rw [hnext] at h
      obtain rfl := Except.ok.inj (Option.some.inj h)
      exact .refl _ _
    | raise e =>
      rw [hnext] at h
      cases h
    | step w₁ =>
      rw [hnext] at h
      exact (touchedBy_next hbase hnext).trans (ih h)

/-- A soft delete touches rows in the user's name only, and if it finds its row, that
one. -/
theorem touchedBy_delete {user : ℕ} {now : ℕ → ℕ} {fuel : ℕ} {s t : Store M F (Columns X)}
    {k : Key M} {b : Bool}
    (h : delete sch cap clean (some user) now fuel s k = some (.ok (t, b))) :
    TouchedBy user s t ∧
      (b = true → ∃ r ∈ t.rows, r.key = k ∧ r.isActive = false ∧ r.updatedBy = some user) := by
  rw [delete] at h
  split at h
  · cases h
    exact ⟨.refl _ _, by simp⟩
  · next r hactive =>
    split at h
    · simp only at h
      split at h
      · cases h
      · next w hdrive =>
        cases h
        have hcascade := touchedBy_drive hbase hdrive
        refine ⟨(touchedBy_update hbase).trans hcascade, ?_⟩
        rintro -
        -- the root is stamped when it is saved, and maybe once more by the cascade
        obtain ⟨g, hg, htouched⟩ := hcascade
        have hmatch := List.find?_some hactive
        simp only [Bool.and_eq_true, beq_iff_eq] at hmatch
        obtain ⟨hkey, -⟩ := hmatch
        have hsaved : sch.deactivate (some user) (now 0) r ∈
            (s.update (fun x => x.key == k) (sch.deactivate (some user) (now 0))
              (sch.deactivate_key (some user) (now 0))).rows := by
          refine List.mem_map.mpr ⟨r, List.mem_of_find?_eq_some hactive, ?_⟩
          rw [if_pos (beq_iff_eq.mpr hkey)]
        have hroot := htouched (sch.deactivate (some user) (now 0) r)
        refine ⟨_, hg ▸ List.mem_map_of_mem hsaved, hroot.key_eq.trans hkey, ?_⟩
        rcases hroot with heq | ⟨-, hoff, hby⟩
        · rw [heq]
          exact ⟨rfl, by simp [Schema.deactivate, hbase]⟩
        · exact ⟨hoff, hby⟩
      · cases h
    · cases h

end Delete

end Rows

section Calls

variable [DecidableEq F] [DecidableEq M] (sch : Schema M F (Columns X)) (cap : ℕ)
  (clean : Row M F (Columns X) → Bool) (blank : M → Instance M F X)

/-! ## Attribution -/

/-- The key of a created row: the one its `dict` names, or the next of the sequence. -/
def createdKey (blank : Instance M F X) (data : Data F X) (seq : ℕ) : Key M :=
  ⟨blank.model, (construct blank data).pk.getD seq⟩

/-- What a call leaves, attributed to its user. -/
def Attributed (s : State M F X) : Label M F X → State M F X → Prop
  | .write _ _, _ => True
  | .create m d user seq _ ok, t =>
    -- a call that goes through inserts a row, unless its key is taken
    (ok = true → (∀ x ∈ s.store.rows, x.key ≠ createdKey (blank m) (s.dicts d) seq) →
      ∃ r ∈ t.store.rows, r.key = createdKey (blank m) (s.dicts d) seq) ∧
    -- the row that was not there before
    ∀ r ∈ t.store.rows, (∀ x ∈ s.store.rows, x.key ≠ r.key) → r.rest.createdBy = some user
  | .update k d user activeOnly _ _ ok, t =>
    ok = true → ∀ r, found s.store k activeOnly = some r →
      ∃ r' ∈ t.store.rows, r'.key = k ∧ r'.updatedBy = some user ∧
        ((∀ u, .createdBy u ∉ s.dicts d ∧ .createdById u ∉ s.dicts d) →
          r'.rest.createdBy = r.rest.createdBy)
  | .delete k user now fuel, t =>
    (∀ store, delete sch cap clean (some user) now fuel s.store k = some (.ok (store, true)) →
      ∃ r' ∈ t.store.rows, r'.key = k ∧ r'.isActive = false ∧ r'.updatedBy = some user) ∧
    -- the rows that were active before and are not any more
    ∀ r ∈ s.store.rows, ∀ r' ∈ t.store.rows, r'.key = r.key → r.isActive = true →
      r'.isActive = false → r'.updatedBy = some user

/-- What the data of a call may say: a `dict` given to `create` names no other creator, one
given to `update` no other primary key. -/
def Guard (s : State M F X) : Label M F X → Prop
  | .create _ d user _ _ _ =>
    (∀ u, .createdById u ∈ s.dicts d → u = some user) ∧
      ((∀ u, .createdById u ∉ s.dicts d) → ∀ u, .createdBy u ∈ s.dicts d → u = some user)
  | .update k d _ _ _ _ _ => ∀ pk, .id pk ∈ s.dicts d → pk = some k.pk
  | _ => True

omit [DecidableEq M] in
/-- The row of a new instance is saved under the key of the call. -/
theorem key_created (i : Instance M F X) (data : Data F X) (user seq now : ℕ) :
    (Instance.row { construct i (applyAuditFields data user) with
      rest := { (construct i (applyAuditFields data user)).rest with createdAt := now } }
      ((construct i (applyAuditFields data user)).pk.getD seq) now).key = createdKey i data seq := by
  rw [Row.key, Instance.row, createdKey, pk_construct_applyAuditFields]
  simp only [model_construct]

/-- A call of `create` that meets the guard is attributed to its user. -/
theorem attributed_create {s t : State M F X} {m : M} {d user seq now : ℕ} {ok : Bool}
    (hguard : Guard s (.create m d user seq now ok))
    (h : step sch cap clean blank s (.create m d user seq now ok) = some t) :
    Attributed sch cap clean blank s (.create m d user seq now ok) t := by
  simp only [step] at h
  refine ⟨?_, ?_⟩
  · rintro rfl hfree
    rw [if_pos rfl] at h
    have hkey := key_created (blank m) (s.dicts d) user seq now
    obtain ⟨hnodup, hinsert⟩ := insert_of_free fun x hx => hkey ▸ hfree x hx
    rw [hinsert] at h
    obtain rfl := Option.some.inj h
    exact ⟨_, List.mem_append_right _ (List.mem_singleton_self _), hkey⟩
  · intro r hr hnew
    split at h
    · split at h
      · next store hinsert =>
        obtain rfl := Option.some.inj h
        obtain ⟨hattname, hname⟩ := hguard
        rw [eq_of_mem_insert hinsert hr hnew]
        exact createdBy_construct _ hattname hname
      · obtain rfl := Option.some.inj h
        exact absurd rfl (hnew r hr)
    · obtain rfl := Option.some.inj h
      exact absurd rfl (hnew r hr)

/-- A call of `update` that meets the guard is attributed to its user. -/
theorem attributed_update {s t : State M F X} {k : Key M} {d user seq now : ℕ}
    {activeOnly ok : Bool} (hguard : Guard s (.update k d user activeOnly seq now ok))
    (h : step sch cap clean blank s (.update k d user activeOnly seq now ok) = some t) :
    Attributed sch cap clean blank s (.update k d user activeOnly seq now ok) t := by
  rintro rfl r hfound
  obtain ⟨hr, hkey⟩ := found_eq_some hfound
  simp only [step, hfound, if_true] at h
  obtain rfl := Option.some.inj h
  have hpk : (updated r (s.dicts d) user).pk = some k.pk := by
    apply foldl_setattr_of_eq (fun i => i.pk) pk_setattr
    · intro e he v hv
      cases e with
      | id pk =>
        obtain rfl := Option.some.inj hv
        exact hguard pk he
      | _ => cases hv
    · rw [instanceOf, ← hkey]
      rfl
  have hmodel : (updated r (s.dicts d) user).model = k.model := by
    change ((s.dicts d).foldl Instance.setattr (instanceOf r)).model = k.model
    rw [model_foldl_setattr, ← hkey]
    rfl
  have hrow : ((updated r (s.dicts d) user).row
      ((updated r (s.dicts d) user).pk.getD seq) now).key = k := by
    rw [hpk, Option.getD_some, Row.key, Instance.row, hmodel]
  refine ⟨_, mem_save hr (hkey.trans hrow.symm), hrow, rfl, ?_⟩
  intro hunnamed
  apply foldl_setattr_of_eq (fun i => i.rest.createdBy) createdBy_setattr
  · intro e he v hv
    rcases Entry.creator_eq_some.mp hv with rfl | rfl
    · exact absurd he (hunnamed v).1
    · exact absurd he (hunnamed v).2
  · rfl

/-- A call of `delete` is attributed to its user. -/
theorem attributed_delete (hbase : ∀ m, sch.hasUpdatedBy m = true) {s t : State M F X}
    {k : Key M} {user fuel : ℕ} {now : ℕ → ℕ}
    (h : step sch cap clean blank s (.delete k user now fuel) = some t) :
    Attributed sch cap clean blank s (.delete k user now fuel) t := by
  simp only [step] at h
  split at h
  · cases h
  · next store b hdelete =>
    obtain rfl := Option.some.inj h
    obtain ⟨htouched, hroot⟩ := touchedBy_delete hbase hdelete
    refine ⟨?_, ?_⟩
    · intro store' hok
      rw [hdelete, Option.some.injEq, Except.ok.injEq, Prod.mk.injEq] at hok
      obtain ⟨-, hfound⟩ := hok
      exact hroot hfound
    · intro r hr r' hr' hkey hon hoff
      exact htouched.updatedBy_eq hr hr' hkey hon hoff
  · next e hdelete =>
    obtain rfl := Option.some.inj h
    refine ⟨?_, ?_⟩
    · intro store' hok
      rw [hdelete] at hok
      cases hok
    · intro r hr r' hr' hkey hon hoff
      obtain rfl := s.store.eq_of_key_eq hr' hr hkey
      rw [hon] at hoff
      cases hoff

/-! ## Runs -/

/-- **Attribution.** In every run whose calls meet the guard, every call is attributed to
its user. -/
theorem attributed_of_guard (hbase : ∀ m, sch.hasUpdatedBy m = true) {s : State M F X}
    {ls : List (Label M F X)} (hguard : (machine sch cap clean blank).Meets Guard s ls) :
    (machine sch cap clean blank).Meets
      (fun s l => ∀ t, (machine sch cap clean blank).step s l = some t →
        Attributed sch cap clean blank s l t) s ls := by
  refine Machine.meets_imp ?_ hguard
  intro s l hl t h
  cases l with
  | write d data => exact trivial
  | create m d user seq now ok => exact attributed_create sch cap clean blank hl h
  | update k d user activeOnly seq now ok => exact attributed_update sch cap clean blank hl h
  | delete k user now fuel => exact attributed_delete sch cap clean blank hbase h

end Calls

/-- One `BaseModel` with a `CASCADE` foreign key to itself. -/
def nodeSchema : Schema Unit Unit (Columns Unit) where
  hasIsActive _ := true
  hasUpdatedAt _ := true
  hasUpdatedBy _ := true
  relatedObjects _ := [⟨(), (), .foreignKey, .cascade⟩]
  ordering _ rows := rows
  ordering_perm _ _ := .rfl

/-- A new instance of it. -/
def blankNode : Unit → Instance Unit Unit Unit :=
  fun _ => ⟨(), none, true, none, fun _ => none, ⟨none, 0, ()⟩⟩

/-- No rows, and every `dict` empty. -/
def emptyState : State Unit Unit Unit := ⟨⟨[], List.nodup_nil⟩, fun _ => []⟩

/-- Two users create a row each, from one `dict`. -/
theorem shared_dict_misattributes :
    ¬ ∀ (sch : Schema Unit Unit (Columns Unit)) (cap : ℕ)
        (clean : Row Unit Unit (Columns Unit) → Bool) (blank : Unit → Instance Unit Unit Unit)
        (s : State Unit Unit Unit) (ls : List (Label Unit Unit Unit)),
        (∀ m, sch.hasUpdatedBy m = true) →
      (machine sch cap clean blank).Meets
        (fun s l => ∀ t, (machine sch cap clean blank).step s l = some t →
          Attributed sch cap clean blank s l t) s ls := by
  intro halways
  have hrun := halways nodeSchema 10 (fun _ => true) blankNode emptyState
    [.create () 0 1 0 0 true, .create () 0 2 1 1 true] (fun _ => rfl)
  obtain ⟨-, hrest⟩ := hrun
  obtain ⟨hsecond, -⟩ := hrest _ rfl
  have hrow := (hsecond _ rfl).2 ⟨(), 1, true, 1, none, fun _ => none, ⟨some 1, 1, ()⟩⟩
    (List.mem_cons_of_mem _ List.mem_cons_self)
  have hnew := hrow (by
    intro x hx
    obtain rfl := List.mem_singleton.mp hx
    decide)
  revert hnew
  decide

/-- Three users, one row: created by the first, deactivated by the third. -/
theorem attributed_three_users :
    ∃ t, (machine nodeSchema 10 (fun _ => true) blankNode).run emptyState
        [.create () 0 1 0 0 true, .update ⟨(), 0⟩ 1 2 true 1 1 true, .delete ⟨(), 0⟩ 3 id 10] =
          some t ∧
      (t.store.rows.map fun r => (r.rest.createdBy, r.updatedBy)) = [(some 1, some 3)] ∧
      (machine nodeSchema 10 (fun _ => true) blankNode).Meets
        (fun s l => ∀ t, (machine nodeSchema 10 (fun _ => true) blankNode).step s l = some t →
          Attributed nodeSchema 10 (fun _ => true) blankNode s l t) emptyState
        [.create () 0 1 0 0 true, .update ⟨(), 0⟩ 1 2 true 1 1 true, .delete ⟨(), 0⟩ 3 id 10] := by
  refine ⟨_, rfl, rfl, ?_⟩
  apply attributed_of_guard nodeSchema 10 (fun _ => true) blankNode (fun _ => rfl)
  refine Machine.meets_cons (by simp [Guard, emptyState]) rfl ?_
  refine Machine.meets_cons ?_ rfl ?_
  · intro pk hpk
    exact absurd hpk List.not_mem_nil
  · exact Machine.meets_cons trivial rfl trivial

end Audit

end DjangoBoilerplate
