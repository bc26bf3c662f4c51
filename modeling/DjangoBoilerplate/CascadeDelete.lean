import DjangoBoilerplate.CascadeWalk

/-!
# `delete` and the relations it meets

`_cascade_soft_delete_bfs` treats every entry of `_meta.related_objects` alike:
`getattr(current, accessor).filter(is_active=True)` and then
`.update(is_active=..., updated_at=...)`. The accessor of a one-to-one relation
has no `filter`, and a model with `is_active` need not have `updated_at`.

`delete_copes_iff`: `delete` copes with the rows below a root exactly if no row
it expands is of a model with such a `CASCADE` relation; whether the relation
has any rows does not matter.
-/

namespace DjangoBoilerplate

namespace Cascade

variable {M F X : Type} [DecidableEq M]

/-- `delete` coped: it did not raise because of a relation or a field, and every
active row within the cap, over relations of both kinds, is inactive. -/
def Copes (sch : Schema M F X) (cap : ℕ) (s : Store M F X) (k : Key M) :
    Except DeleteError (Store M F X × Bool) → Prop
  | .ok (s', _) =>
    ∀ r ∈ s.rows, r.isActive = true → sch.hasIsActive r.model = true →
      (∃ n ≤ cap, Path (Edge sch s) k n r.key) →
        ∃ r' ∈ s'.rows, r'.key = r.key ∧ r'.isActive = false
  | .error .validation => True
  | .error (.cascade _) => False

/-- The store once the root is saved. -/
def Store.saved (s : Store M F X) (sch : Schema M F X) (user : Option ℕ) (now : ℕ) (k : Key M) :
    Store M F X :=
  s.update (fun x => x.key == k) (sch.deactivate user now) (sch.deactivate_key user now)

variable {sch : Schema M F X} {cap : ℕ} {clean : Row M F X → Bool} {user : Option ℕ}
  {now : ℕ → ℕ} {s : Store M F X} {k : Key M}

/-- A row of the saved store: the root, inactive now, or a row as it was. -/
theorem mem_saved {t : ℕ} {r' : Row M F X} (h : r' ∈ (s.saved sch user t k).rows) :
    (r'.key = k ∧ r'.isActive = false) ∨ (r'.key ≠ k ∧ r' ∈ s.rows) := by
  obtain ⟨r, hr, rfl⟩ := List.mem_map.mp h
  rcases eq_or_ne r.key k with hkey | hkey
  · rw [if_pos (beq_iff_eq.mpr hkey)]
    exact Or.inl ⟨hkey, rfl⟩
  · rw [if_neg (by simpa using hkey)]
    exact Or.inr ⟨hkey, hr⟩

/-- The other rows are still there. -/
theorem mem_saved_of_ne {t : ℕ} {r : Row M F X} (hr : r ∈ s.rows) (hne : r.key ≠ k) :
    r ∈ (s.saved sch user t k).rows := by
  refine List.mem_map.mpr ⟨r, hr, ?_⟩
  rw [if_neg (by simpa using hne)]

/-- Saving the root takes the edges back to it out of the graph. -/
theorem edge_saved_iff {t : ℕ} {a b : Key M} :
    Edge sch (s.saved sch user t k) a b ↔ Edge sch s a b ∧ b ≠ k := by
  refine ⟨?_, ?_⟩
  · rintro ⟨rel, hrel, hfollowed, r, hr, rfl, hchild⟩
    rcases mem_saved hr with ⟨-, hoff⟩ | ⟨hne, hr⟩
    · simp [Row.isActiveChild, hoff] at hchild
    · exact ⟨⟨rel, hrel, hfollowed, r, hr, rfl, hchild⟩, hne⟩
  · rintro ⟨⟨rel, hrel, hfollowed, r, hr, rfl, hchild⟩, hne⟩
    exact ⟨rel, hrel, hfollowed, r, mem_saved_of_ne hr hne, rfl, hchild⟩

/-- So it leaves every row at its distance from the root. -/
theorem path_saved {t n : ℕ} {v : Key M} (h : Path (Edge sch s) k n v) :
    ∃ m ≤ n, Path (Edge sch (s.saved sch user t k)) k m v := by
  obtain ⟨m, hm, hpath⟩ := h.avoid_root
  exact ⟨m, hm, hpath.mono fun _ _ hedge => edge_saved_iff.mpr hedge⟩

theorem path_of_saved {t n : ℕ} {v : Key M}
    (h : Path (Edge sch (s.saved sch user t k)) k n v) : Path (Edge sch s) k n v :=
  h.mono fun _ _ hedge => (edge_saved_iff.mp hedge).1

/-- The root is inactive in the saved store. -/
theorem root_saved {t : ℕ} :
    ∀ r ∈ (s.saved sch user t k).rows, r.key = k → r.isActive = false := by
  intro r hr hkey
  rcases mem_saved hr with ⟨-, hoff⟩ | ⟨hne, -⟩
  · exact hoff
  · exact absurd hkey hne

/-- No row the walk expands has a relation that raises. -/
def SafeBelow (sch : Schema M F X) (cap : ℕ) (s : Store M F X) (k : Key M) : Prop :=
  ∀ n < cap, ∀ v, Path (Edge sch s) k n v → ∀ rel ∈ sch.relatedObjects v.model, rel.Safe sch

/-- A walk that ends has met no unsafe relation, -/
theorem safeBelow_of_end {t m : ℕ} {times : ℕ → ℕ} {w : Walk M F X} {P : List (Key M × ℕ)}
    (h : Simulates sch cap user times (s.saved sch user t k) k m w ⟨P, none, []⟩) :
    SafeBelow sch cap s k := by
  intro n hn v hpath
  obtain ⟨m, hm, hsaved⟩ := path_saved hpath
  obtain ⟨e, he, hmem⟩ := h.layered.pushed_of_path hsaved (by omega)
  exact h.safe (v, e) hmem (by dsimp only; omega)

/-- and it has deactivated every row within the cap. -/
theorem copes_of_end {t m : ℕ} {times : ℕ → ℕ} {w : Walk M F X} {P : List (Key M × ℕ)}
    (h : Simulates sch cap user times (s.saved sch user t k) k m w ⟨P, none, []⟩) :
    Copes sch cap s k (.ok (w.store, true)) := by
  rintro r hr hactive - ⟨n, hn, hpath⟩
  obtain ⟨m, hm, hsaved⟩ := path_saved hpath
  obtain ⟨e, -, hmem⟩ := h.layered.pushed_of_path hsaved (by omega)
  obtain ⟨g, hg, hrows⟩ := h.rows
  have hP : Search.pushed ⟨P, none, []⟩ = P := by
    simp [Search.pushed]
  rw [hP] at hrows
  -- the row in the saved store: the root itself, or the row as it was
  obtain ⟨x, hx, hkey, hx'⟩ : ∃ x ∈ (s.saved sch user t k).rows, x.key = r.key ∧
      (x.isActive = true → ∃ e, (x.key, e) ∈ P) := by
    rcases eq_or_ne r.key k with hk | hk
    · refine ⟨sch.deactivate user t r, List.mem_map.mpr ⟨r, hr, ?_⟩, rfl, by simp⟩
      rw [if_pos (beq_iff_eq.mpr hk)]
    · exact ⟨r, mem_saved_of_ne hr hk, rfl, fun _ => ⟨e, hmem⟩⟩
  refine ⟨g x, hg ▸ List.mem_map_of_mem hx, (hrows x hx).key_eq.trans hkey, ?_⟩
  have hafter := hrows x hx
  generalize g x = x' at hafter ⊢
  cases hafter with
  | deactivated _ _ _ => rfl
  | same hnot =>
    rcases hoff : x.isActive with _ | _
    · rfl
    · obtain ⟨e, he⟩ := hx' hoff
      exact absurd he (hnot hoff e)

/-- `delete` of a row whose save is valid returns what the walk leaves, -/
theorem delete_of_drive_ok {r : Row M F X} {fuel : ℕ} {w : Walk M F X}
    (hr : s.active k = some r) (hclean : clean (sch.deactivate user (now 0) r) = true)
    (h : drive sch cap user (fun n => now (n + 1)) fuel 0
      (.start (s.saved sch user (now 0) k) k) = some (.ok w)) :
    delete sch cap clean user now fuel s k = some (.ok (w.store, true)) := by
  simp only [Store.saved] at h
  simp only [delete, hr, hclean, if_true, cascadeSoftDeleteBfs, h]

/-- or raises what the walk raises. -/
theorem delete_of_drive_error {r : Row M F X} {fuel : ℕ} {e : Raise}
    (hr : s.active k = some r) (hclean : clean (sch.deactivate user (now 0) r) = true)
    (h : drive sch cap user (fun n => now (n + 1)) fuel 0
      (.start (s.saved sch user (now 0) k) k) = some (.error e)) :
    delete sch cap clean user now fuel s k = some (.error (.cascade e)) := by
  simp only [Store.saved] at h
  simp only [delete, hr, hclean, if_true, cascadeSoftDeleteBfs, h]

/-- **When `delete` copes.** On an active row it does, with enough fuel, exactly
if the root's own save fails validation or no row it expands is of a model with
a `CASCADE` relation to a model with `is_active` that is one-to-one or lacks
`updated_at`. -/
theorem delete_copes_iff (sch : Schema M F X) (cap : ℕ) (clean : Row M F X → Bool)
    (user : Option ℕ) (now : ℕ → ℕ) (s : Store M F X) (k : Key M) (r : Row M F X)
    (hr : s.active k = some r) :
    (∃ N, ∀ fuel ≥ N, ∃ out, delete sch cap clean user now fuel s k = some out ∧
        Copes sch cap s k out) ↔
      clean (sch.deactivate user (now 0) r) = false ∨ SafeBelow sch cap s k := by
  rcases hclean : clean (sch.deactivate user (now 0) r) with _ | _
  · -- the save raises before the walk
    have hdelete : ∀ fuel, delete sch cap clean user now fuel s k = some (.error .validation) := by
      intro fuel
      simp [delete, hr, hclean]
    exact ⟨fun _ => Or.inl rfl, fun _ => ⟨0, fun fuel _ => ⟨_, hdelete fuel, trivial⟩⟩⟩
  · have hstart := simulates_start sch cap user (fun n => now (n + 1))
      (s.saved sch user (now 0) k) k root_saved
    refine ⟨?_, ?_⟩
    · rintro ⟨N, hcopes⟩
      apply Or.inr
      have hfuel : (Walk.start (s.saved sch user (now 0) k) k).effort sch <
          N + (Walk.start (s.saved sch user (now 0) k) k).effort sch + 1 := by
        omega
      obtain ⟨out, hout, hcope⟩ := hcopes _ (by omega : N ≤ N + _ + 1)
      rcases hstart.drive hfuel with ⟨w, m, P, -, -, hend⟩ | ⟨e, herror, -⟩
      · exact safeBelow_of_end hend
      · rw [delete_of_drive_error hr hclean herror] at hout
        obtain rfl := Option.some.inj hout
        exact absurd hcope id
    · rintro (hfalse | hsafe)
      · cases hfalse
      · refine ⟨(Walk.start (s.saved sch user (now 0) k) k).effort sch + 1, ?_⟩
        intro fuel hfuel
        rcases hstart.drive (Nat.lt_of_succ_le hfuel) with ⟨w, m, P, hok, -, hend⟩ | hraise
        · exact ⟨_, delete_of_drive_ok hr hclean hok, copes_of_end hend⟩
        · obtain ⟨-, -, n, hn, v, hpath, rel, hrel, hunsafe⟩ := hraise
          exact absurd (hsafe n hn v (path_of_saved hpath) rel hrel) hunsafe

/-- A parent (`true`) and a child (`false`), with the given kind of relation and
with or without `updated_at` on the child. -/
def parentChild (kind : RelKind) (stamped : Bool) : Schema Bool Unit Unit where
  hasIsActive _ := true
  hasUpdatedAt m := m || stamped
  hasUpdatedBy _ := true
  relatedObjects m := if m then [⟨false, (), kind, .cascade⟩] else []
  ordering _ rows := rows
  ordering_perm _ _ := .rfl

/-- One parent and its child, both active. -/
def oneChild : Store Bool Unit Unit where
  rows := [⟨true, 0, true, 0, none, fun _ => none, ()⟩,
    ⟨false, 0, true, 0, none, fun _ => some 0, ()⟩]
  nodup := by decide

/-- `delete` of a parent with a one-to-one child raises `AttributeError`. -/
theorem one_to_one_child_raises :
    ¬ ∀ (sch : Schema Bool Unit Unit) (cap : ℕ) (clean : Row Bool Unit Unit → Bool)
      (user : Option ℕ) (now : ℕ → ℕ) (s : Store Bool Unit Unit) (k : Key Bool)
      (r : Row Bool Unit Unit), s.active k = some r →
        ∃ N, ∀ fuel ≥ N, ∃ out, delete sch cap clean user now fuel s k = some out ∧
          Copes sch cap s k out := by
  intro halways
  obtain ⟨N, hN⟩ := halways (parentChild .oneToOne true) 10 (fun _ => true) none id oneChild
    ⟨true, 0⟩ _ rfl
  obtain ⟨out, hout, hcopes⟩ := hN (N + 3) (Nat.le_add_right N 3)
  have hraise : delete (parentChild .oneToOne true) 10 (fun _ => true) none id (N + 3) oneChild
      ⟨true, 0⟩ = some (.error (.cascade .attributeError)) := rfl
  rw [hraise] at hout
  obtain rfl := Option.some.inj hout
  exact hcopes

/-- So does, with `FieldDoesNotExist`, `delete` of a parent whose child model has
no `updated_at`. -/
example : delete (parentChild .foreignKey false) 10 (fun _ => true) none id 10 oneChild ⟨true, 0⟩ =
    some (.error (.cascade .fieldDoesNotExist)) := rfl

/-- With a foreign key and the audit fields `delete` copes. -/
theorem delete_copes_foreign_key :
    ∃ N, ∀ fuel ≥ N, ∃ out,
      delete (parentChild .foreignKey true) 10 (fun _ => true) none id fuel oneChild ⟨true, 0⟩ =
        some out ∧ Copes (parentChild .foreignKey true) 10 oneChild ⟨true, 0⟩ out := by
  refine (delete_copes_iff (parentChild .foreignKey true) 10 (fun _ => true) none id oneChild
    ⟨true, 0⟩ _ rfl).mpr (Or.inr ?_)
  rintro n - ⟨m, pk⟩ - rel hrel -
  cases m with
  | true =>
    obtain rfl := List.mem_singleton.mp hrel
    exact ⟨rfl, rfl⟩
  | false => cases hrel

end Cascade

end DjangoBoilerplate
