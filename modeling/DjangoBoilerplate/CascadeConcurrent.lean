import DjangoBoilerplate.CascadeWalk

/-!
# The cascade among other transactions

Under `READ COMMITTED` every query of the walk sees what was committed before it
started. `children = list(related_qs)` and `related_qs.update(...)` are two
queries, so a row that another transaction commits in between is deactivated by
the second without having been returned by the first: it is never put on the
frontier, and its own children stay active (`late_row_not_expanded`).

The machine interleaves the steps of the walk with inserts. A run in which no
insert falls between the two queries of a relation and matches them leaves no
row half expanded (`no_half_expanded_of_noLateChild`).
-/

namespace DjangoBoilerplate

namespace Cascade

variable {M F X : Type} [DecidableEq M]

/-! ## The machine -/

/-- A row the walk deactivated. -/
structure Flip (M F X : Type) : Type where
  /-- the row -/
  key : Key M
  /-- its depth -/
  depth : ℕ
  /-- the rows committed at that moment -/
  committed : List (Row M F X)

/-- The walk, with a record of what it did. -/
structure Concurrent (M F X : Type) : Type where
  /-- the walk -/
  walk : Walk M F X
  /-- the rows it deactivated -/
  flips : List (Flip M F X)
  /-- the rows whose relations it has gone through -/
  expanded : List (Key M × ℕ)

/-- The atomic steps. -/
inductive Event (M F X : Type) : Type where
  /-- the walk takes a step, at a time -/
  | walk : ℕ → Event M F X
  /-- another transaction commits these rows -/
  | insert : List (Row M F X) → Event M F X

/-- The rows the next step of the walk deactivates. -/
def Walk.flips (w : Walk M F X) : List (Flip M F X) :=
  match w.pc with
  | .selected cur depth rel _ _ =>
    (w.store.rows.filter fun r => r.isActiveChild cur rel).map fun r =>
      ⟨r.key, depth + 1, w.store.rows⟩
  | _ => []

/-- The row whose relations are done with after the next step. -/
def Walk.expands (w : Walk M F X) : List (Key M × ℕ) :=
  match w.pc with
  | .relations cur depth [] => [(cur, depth)]
  | _ => []

/-- An `INSERT`, refused where a primary key is taken. -/
def Store.insert (s : Store M F X) (batch : List (Row M F X)) : Option (Store M F X) :=
  if h : ((s.rows ++ batch).map Row.key).Nodup then some ⟨s.rows ++ batch, h⟩ else none

/-- One atomic step. An insert of a child of the root waits for the lock that
`select_for_update()` took on it. -/
def Concurrent.step (sch : Schema M F X) (cap : ℕ) (user : Option ℕ) (root : Key M)
    (c : Concurrent M F X) : Event M F X → Option (Concurrent M F X)
  | .walk now =>
    match next sch cap user now c.walk with
    | .step w => some ⟨w, c.flips ++ c.walk.flips, c.expanded ++ c.walk.expands⟩
    | _ => none
  | .insert batch =>
    if batch.any fun r => (sch.relatedObjects root.model).any fun rel => r.refersTo root rel then
      none
    else
      (c.walk.store.insert batch).map fun s => { c with walk := { c.walk with store := s } }

/-- The walk among other transactions, as a machine. -/
def Concurrent.machine (sch : Schema M F X) (cap : ℕ) (user : Option ℕ) (root : Key M) :
    Machine (Concurrent M F X) (Event M F X) where
  step := Concurrent.step sch cap user root

/-- The root is saved, the walk is about to start. -/
def Concurrent.start (s : Store M F X) (root : Key M) : Concurrent M F X where
  walk := .start s root
  flips := []
  expanded := []

/-- Left alone, the machine does what `drive` does. -/
theorem run_of_drive {sch : Schema M F X} {cap : ℕ} {user : Option ℕ} {now : ℕ → ℕ}
    {root : Key M} :
    ∀ {fuel n : ℕ} {c : Concurrent M F X} {w : Walk M F X},
      drive sch cap user now fuel n c.walk = some (.ok w) →
      ∃ times : List ℕ, ∃ c', (Concurrent.machine sch cap user root).run c (times.map .walk) =
        some c' ∧ c'.walk = w ∧ w.pc = .idle ∧ w.frontier = [] := by
  intro fuel
  induction fuel with
  | zero =>
    intro n c w h
    cases h
  | succ fuel ih =>
    intro n c w h
    rw [drive] at h
    rcases hnext : next sch cap user (now n) c.walk with w₁ | _ | e
    · rw [hnext] at h
      obtain ⟨times, c', hrun, hend⟩ := ih
        (c := ⟨w₁, c.flips ++ c.walk.flips, c.expanded ++ c.walk.expands⟩) h
      refine ⟨now n :: times, c', ?_, hend⟩
      have hstep : (Concurrent.machine sch cap user root).step c (.walk (now n)) =
          some ⟨w₁, c.flips ++ c.walk.flips, c.expanded ++ c.walk.expands⟩ := by
        simp only [Concurrent.machine, Concurrent.step, hnext]
      rw [List.map_cons, Machine.run, hstep]
      exact hrun
    · rw [hnext] at h
      cases h
      exact ⟨[], c, rfl, rfl, next_done hnext⟩
    · rw [hnext] at h
      cases h

/-! ## The property and the guard -/

/-- Every row with this name is inactive. -/
def Inactive (rows : List (Row M F X)) (k : Key M) : Prop :=
  ∀ r ∈ rows, r.key = k → r.isActive = false

/-- Once the walk has ended: every row it deactivated below the cap has been
expanded by it, and its `CASCADE` children that were committed at that moment
are inactive. -/
def NoHalfExpanded (sch : Schema M F X) (cap : ℕ) (c : Concurrent M F X) : Prop :=
  c.walk.pc = .idle → c.walk.frontier = [] → ∀ f ∈ c.flips, f.depth < cap →
    (f.key, f.depth) ∈ c.expanded ∧
      ∀ rel ∈ sch.relatedObjects f.key.model, rel.Followed sch → ∀ r ∈ f.committed,
        r.refersTo f.key rel = true → Inactive c.walk.store.rows r.key

/-- The guard: between the `SELECT` and the `UPDATE` of a relation, at a depth
whose children are to be expanded, no other transaction commits an active row
that they match. -/
def NoLateChild (cap : ℕ) (c : Concurrent M F X) (e : Event M F X) : Prop :=
  ∀ batch cur depth rel children rels, e = .insert batch →
    c.walk.pc = .selected cur depth rel children rels → depth + 1 < cap →
      ∀ r ∈ batch, r.isActiveChild cur rel = false

/-! ## The invariant -/

/-- The row is being expanded. -/
def Pc.IsAt (x : Key M × ℕ) : Pc M F → Prop
  | .idle => False
  | .relations cur depth _ => x = (cur, depth)
  | .selected cur depth _ _ _ => x = (cur, depth)

/-- The row is being expanded and the relation is still to be updated. -/
def Pc.Awaits (x : Key M × ℕ) (rel : Rel M F) : Pc M F → Prop
  | .idle => False
  | .relations cur depth rels => x = (cur, depth) ∧ rel ∈ rels
  | .selected cur depth rel' _ rels => x = (cur, depth) ∧ rel ∈ rel' :: rels

/-- What holds of a row the walk deactivated below the cap. -/
structure Tracked (sch : Schema M F X) (c : Concurrent M F X) (f : Flip M F X) : Prop where
  /-- the rows committed at that moment are still there -/
  kept : ∀ r ∈ f.committed, ∃ r' ∈ c.walk.store.rows, r'.key = r.key ∧ r'.fk = r.fk
  /-- it is on the frontier, being expanded, or has been -/
  place : (f.key, f.depth) ∈ c.walk.frontier ∨ c.walk.pc.IsAt (f.key, f.depth) ∨
    (f.key, f.depth) ∈ c.expanded
  /-- each relation is still to come or its children are inactive -/
  children : ∀ rel ∈ sch.relatedObjects f.key.model, rel.Followed sch →
    (f.key, f.depth) ∈ c.walk.frontier ∨ c.walk.pc.Awaits (f.key, f.depth) rel ∨
      ∀ r ∈ f.committed, r.refersTo f.key rel = true → Inactive c.walk.store.rows r.key

/-- The invariant of the guarded runs. -/
structure Attended (sch : Schema M F X) (cap : ℕ) (c : Concurrent M F X) : Prop where
  /-- every row deactivated below the cap is tracked -/
  flips : ∀ f ∈ c.flips, f.depth < cap → Tracked sch c f
  /-- the selected children are all that the `UPDATE` will deactivate -/
  selected : ∀ cur depth rel children rels, c.walk.pc = .selected cur depth rel children rels →
    depth + 1 < cap → ∀ r ∈ c.walk.store.rows, r.isActiveChild cur rel = true → r.key ∈ children

variable {sch : Schema M F X} {cap : ℕ} {user : Option ℕ} {root : Key M}

theorem attended_start (sch : Schema M F X) (cap : ℕ) (s : Store M F X) (root : Key M) :
    Attended sch cap (.start s root) := by
  constructor <;> simp [Concurrent.start, Walk.start]

variable {c c' : Concurrent M F X} {f : Flip M F X}

/-- How tracking a row carries over to a later state. -/
theorem Tracked.mono (h : Tracked sch c f)
    (hkept : ∀ r ∈ c.walk.store.rows, ∃ r' ∈ c'.walk.store.rows, r'.key = r.key ∧ r'.fk = r.fk)
    (hinactive : ∀ r ∈ f.committed, Inactive c.walk.store.rows r.key →
      Inactive c'.walk.store.rows r.key)
    (hexpanded : ∀ x ∈ c.expanded, x ∈ c'.expanded)
    (hplace : (f.key, f.depth) ∈ c.walk.frontier ∨ c.walk.pc.IsAt (f.key, f.depth) →
      (f.key, f.depth) ∈ c'.walk.frontier ∨ c'.walk.pc.IsAt (f.key, f.depth) ∨
        (f.key, f.depth) ∈ c'.expanded)
    (hawaits : ∀ rel ∈ sch.relatedObjects f.key.model, rel.Followed sch →
      (f.key, f.depth) ∈ c.walk.frontier ∨ c.walk.pc.Awaits (f.key, f.depth) rel →
      (f.key, f.depth) ∈ c'.walk.frontier ∨ c'.walk.pc.Awaits (f.key, f.depth) rel ∨
        ∀ r ∈ f.committed, r.refersTo f.key rel = true → Inactive c'.walk.store.rows r.key) :
    Tracked sch c' f := by
  refine ⟨?_, ?_, ?_⟩
  · intro r hr
    obtain ⟨r₁, hr₁, hkey₁, hfk₁⟩ := h.kept r hr
    obtain ⟨r₂, hr₂, hkey₂, hfk₂⟩ := hkept r₁ hr₁
    exact ⟨r₂, hr₂, hkey₂.trans hkey₁, hfk₂.trans hfk₁⟩
  · rcases h.place with hfrontier | hat | hexp
    · exact hplace (Or.inl hfrontier)
    · exact hplace (Or.inr hat)
    · exact Or.inr (Or.inr (hexpanded _ hexp))
  · intro rel hrel hfollowed
    rcases h.children rel hrel hfollowed with hfrontier | hawait | hdone
    · exact hawaits rel hrel hfollowed (Or.inl hfrontier)
    · exact hawaits rel hrel hfollowed (Or.inr hawait)
    · exact Or.inr (Or.inr fun r hr hrefers => hinactive r hr (hdone r hr hrefers))

/-- Two rows of one name and with the same foreign keys are children of the same
rows. -/
theorem refersTo_congr {r r' : Row M F X} (hkey : r'.key = r.key) (hfk : r'.fk = r.fk)
    (cur : Key M) (rel : Rel M F) : r'.refersTo cur rel = r.refersTo cur rel := by
  have hmodel : r'.model = r.model := congrArg Key.model hkey
  simp only [Row.refersTo, hmodel, hfk]

/-- An `UPDATE` of a relation leaves no active child behind, and no row becomes
active. -/
theorem isActive_update {s : Store M F X} {now : ℕ} {cur : Key M} {rel : Rel M F}
    {r' : Row M F X}
    (hr' : r' ∈ (s.update (fun r => r.isActiveChild cur rel) (sch.deactivate user now)
      (sch.deactivate_key user now)).rows) :
    ∃ r ∈ s.rows, r'.key = r.key ∧ r'.fk = r.fk ∧
      (r'.isActive = true → r.isActive = true ∧ r.refersTo cur rel = false) := by
  obtain ⟨r, hr, rfl⟩ := List.mem_map.mp hr'
  refine ⟨r, hr, ?_⟩
  split
  · exact ⟨rfl, rfl, by simp⟩
  · next hchild =>
    refine ⟨rfl, rfl, ?_⟩
    intro hactive
    refine ⟨hactive, ?_⟩
    simpa [Row.isActiveChild, hactive] using hchild

/-- The step that updates a relation keeps every row tracked, and the rows it
deactivates are tracked from now on. -/
theorem Attended.update {s : Store M F X} {frontier pushed : List (Key M × ℕ)} {cur : Key M}
    {depth now : ℕ} {rel : Rel M F} {children : List (Key M)} {rels : List (Rel M F)}
    {flips : List (Flip M F X)} {expanded : List (Key M × ℕ)}
    (h : Attended sch cap
      ⟨⟨s, frontier, .selected cur depth rel children rels, pushed⟩, flips, expanded⟩) :
    Attended sch cap
      ⟨⟨s.update (fun r => r.isActiveChild cur rel) (sch.deactivate user now)
            (sch.deactivate_key user now),
          frontier ++ children.map fun k => (k, depth + 1), .relations cur depth rels,
          pushed ++ children.map fun k => (k, depth + 1)⟩,
        flips ++ Walk.flips ⟨s, frontier, .selected cur depth rel children rels, pushed⟩,
        expanded ++ []⟩ := by
  have hkept : ∀ r ∈ s.rows, ∃ r' ∈ (s.update (fun r => r.isActiveChild cur rel)
      (sch.deactivate user now) (sch.deactivate_key user now)).rows,
      r'.key = r.key ∧ r'.fk = r.fk := by
    intro r hr
    refine ⟨_, List.mem_map_of_mem hr, ?_⟩
    split <;> exact ⟨rfl, rfl⟩
  refine ⟨?_, by simp⟩
  intro f hf hdepth
  rcases List.mem_append.mp hf with hf | hf
  · have htracked := h.flips f hf hdepth
    refine htracked.mono hkept ?_ (fun x hx => List.mem_append_left _ hx) ?_ ?_
    · intro r hr hoff r' hr' hkey
      obtain ⟨r₀, hr₀, hkey₀, -, hback⟩ := isActive_update hr'
      rw [Bool.eq_false_iff]
      intro hactive
      rw [hoff r₀ hr₀ (hkey₀.symm.trans hkey)] at hback
      cases (hback hactive).1
    · rintro (hfrontier | hat)
      · exact Or.inl (List.mem_append_left _ hfrontier)
      · exact Or.inr (Or.inl hat)
    · rintro rel' hrel' hfollowed (hfrontier | ⟨hat, hmem⟩)
      · exact Or.inl (List.mem_append_left _ hfrontier)
      · rcases List.mem_cons.mp hmem with rfl | hmem
        · -- the relation of this very step
          refine Or.inr (Or.inr ?_)
          intro r hr hrefers r' hr' hkey
          obtain ⟨r₀, hr₀, hkey₀, -, hback⟩ := isActive_update hr'
          obtain ⟨r₁, hr₁, hkey₁, hfk₁⟩ := htracked.kept r hr
          obtain rfl := s.eq_of_key_eq hr₀ hr₁ (by rw [← hkey₀, hkey, hkey₁])
          obtain ⟨hcur, -⟩ := Prod.mk.inj hat
          rw [Bool.eq_false_iff]
          intro hactive
          have hnot := (hback hactive).2
          rw [refersTo_congr hkey₁ hfk₁, ← hcur, hrefers] at hnot
          cases hnot
        · exact Or.inr (Or.inl ⟨hat, hmem⟩)
  · -- a row this step deactivates was selected, so it goes to the frontier
    obtain ⟨r, hr, rfl⟩ := List.mem_map.mp hf
    obtain ⟨hr, hchild⟩ := List.mem_filter.mp hr
    have hkey : r.key ∈ children := h.selected _ _ _ _ _ rfl hdepth r hr hchild
    have hfrontier : (r.key, depth + 1) ∈ frontier ++ children.map fun k => (k, depth + 1) :=
      List.mem_append_right _ (List.mem_map.mpr ⟨r.key, hkey, rfl⟩)
    exact ⟨hkept, Or.inl hfrontier, fun _ _ _ => Or.inl hfrontier⟩

/-- A step that leaves the store alone keeps the invariant, if no row that is tracked leaves
its place before it is expanded. -/
theorem Attended.quiet {w : Walk M F X} (h : Attended sch cap c) (hstore : w.store = c.walk.store)
    (hflips : c.walk.flips = [])
    (hselected : ∀ cur depth rel children rels, w.pc = .selected cur depth rel children rels →
      children = sch.select w.store cur rel)
    (hplace : ∀ x : Key M × ℕ, x.2 < cap → x ∈ c.walk.frontier ∨ c.walk.pc.IsAt x →
      x ∈ w.frontier ∨ w.pc.IsAt x ∨ x ∈ c.expanded ++ c.walk.expands)
    (hawaits : ∀ x : Key M × ℕ, x.2 < cap → ∀ rel ∈ sch.relatedObjects x.1.model,
      rel.Followed sch → x ∈ c.walk.frontier ∨ c.walk.pc.Awaits x rel →
        x ∈ w.frontier ∨ w.pc.Awaits x rel) :
    Attended sch cap ⟨w, c.flips ++ c.walk.flips, c.expanded ++ c.walk.expands⟩ := by
  refine ⟨?_, ?_⟩
  · intro f hf hdepth
    rw [hflips, List.append_nil] at hf
    refine (h.flips f hf hdepth).mono ?_ ?_ (fun x hx => List.mem_append_left _ hx)
      (hplace _ hdepth) ?_
    · intro r hr
      exact ⟨r, hstore ▸ hr, rfl, rfl⟩
    · intro r _ hoff
      exact hstore ▸ hoff
    · intro rel hrel hfollowed hcome
      rcases hawaits _ hdepth rel hrel hfollowed hcome with hcome | hcome
      · exact Or.inl hcome
      · exact Or.inr (Or.inl hcome)
  · intro cur depth rel children rels hpc _ r hr hchild
    rw [hselected cur depth rel children rels hpc, mem_select]
    exact ⟨r, hr, hchild, rfl⟩

/-- **Step lemma.** The steps of the walk keep the invariant. -/
theorem Attended.walk {w : Walk M F X} {now : ℕ} (h : Attended sch cap c)
    (hstep : StepsTo sch cap user now c.walk w) :
    Attended sch cap ⟨w, c.flips ++ c.walk.flips, c.expanded ++ c.walk.expands⟩ := by
  obtain ⟨walk, flips, expanded⟩ := c
  cases hstep with
  | @skip s cur depth rest pushed hcap =>
    -- a row at the cap is not tracked
    have hrest : ∀ x : Key M × ℕ, x.2 < cap → x ∈ (cur, depth) :: rest → x ∈ rest := by
      intro x hx hmem
      rcases List.mem_cons.mp hmem with rfl | hmem
      · exact absurd hcap (Nat.not_le.mpr hx)
      · exact hmem
    refine h.quiet rfl rfl (by simp) ?_ ?_
    · rintro x hx (hmem | hat)
      · exact Or.inl (hrest x hx hmem)
      · exact absurd hat id
    · rintro x hx rel - - (hmem | hawait)
      · exact Or.inl (hrest x hx hmem)
      · exact absurd hawait id
  | pop hcap =>
    refine h.quiet rfl rfl (by simp) ?_ ?_
    · rintro x - (hmem | hat)
      · rcases List.mem_cons.mp hmem with rfl | hmem
        · exact Or.inr (Or.inl rfl)
        · exact Or.inl hmem
      · exact absurd hat id
    · rintro x - rel hrel - (hmem | hawait)
      · rcases List.mem_cons.mp hmem with rfl | hmem
        · exact Or.inr ⟨rfl, hrel⟩
        · exact Or.inl hmem
      · exact absurd hawait id
  | ignore hnot =>
    refine h.quiet rfl rfl (by simp) ?_ ?_
    · rintro x - (hmem | hat)
      · exact Or.inl hmem
      · exact Or.inr (Or.inl hat)
    · rintro x - rel' hrel' hfollowed (hmem | ⟨hat, hawait⟩)
      · exact Or.inl hmem
      · rcases List.mem_cons.mp hawait with rfl | hawait
        · exact absurd hfollowed hnot
        · exact Or.inr ⟨hat, hawait⟩
  | select hfollowed hkind =>
    refine h.quiet rfl rfl ?_ ?_ ?_
    · intro cur depth rel children rels hpc
      cases hpc
      rfl
    · rintro x - (hmem | hat)
      · exact Or.inl hmem
      · exact Or.inr (Or.inl hat)
    · rintro x - rel' hrel' hfollowed (hmem | hawait)
      · exact Or.inl hmem
      · exact Or.inr hawait
  | update hstamp => exact h.update
  | @finish s frontier pushed cur depth =>
    refine h.quiet rfl rfl (by simp) ?_ ?_
    · rintro x - (hmem | hat)
      · exact Or.inl hmem
      · exact Or.inr (Or.inr (List.mem_append_right _ (List.mem_singleton.mpr hat)))
    · rintro x - rel' hrel' hfollowed (hmem | ⟨-, hawait⟩)
      · exact Or.inl hmem
      · cases hawait

/-- **Step lemma.** So do the inserts the guard allows. -/
theorem Attended.insert {batch : List (Row M F X)} {s : Store M F X} (h : Attended sch cap c)
    (hG : NoLateChild cap c (.insert batch)) (hs : c.walk.store.insert batch = some s) :
    Attended sch cap { c with walk := { c.walk with store := s } } := by
  simp only [Store.insert] at hs
  split at hs
  · next hnodup =>
    obtain rfl := Option.some.inj hs
    refine ⟨?_, ?_⟩
    · intro f hf hdepth
      have htracked := h.flips f hf hdepth
      refine htracked.mono ?_ ?_ (fun _ hx => hx) ?_ ?_
      · intro r hr
        exact ⟨r, List.mem_append_left _ hr, rfl, rfl⟩
      · intro r hr hoff r' hr' hkey
        rcases List.mem_append.mp hr' with hr' | hr'
        · exact hoff r' hr' hkey
        · -- the name is taken by a row that is still there
          obtain ⟨r₁, hr₁, hkey₁, -⟩ := htracked.kept r hr
          obtain rfl := List.inj_on_of_nodup_map hnodup (List.mem_append_left _ hr₁)
            (List.mem_append_right _ hr') (hkey₁.trans hkey.symm)
          exact hoff r₁ hr₁ hkey
      · rintro (hmem | hat)
        · exact Or.inl hmem
        · exact Or.inr (Or.inl hat)
      · rintro rel - - (hmem | hawait)
        · exact Or.inl hmem
        · exact Or.inr (Or.inl hawait)
    · intro cur depth rel children rels hpc hdepth r hr hchild
      rcases List.mem_append.mp hr with hr | hr
      · exact h.selected cur depth rel children rels hpc hdepth r hr hchild
      · rw [hG batch cur depth rel children rels rfl hpc hdepth r hr] at hchild
        cases hchild
  · cases hs

theorem Attended.step {e : Event M F X} (h : Attended sch cap c) (hG : NoLateChild cap c e)
    (hstep : (Concurrent.machine sch cap user root).step c e = some c') :
    Attended sch cap c' := by
  cases e with
  | walk now =>
    simp only [Concurrent.machine, Concurrent.step] at hstep
    split at hstep
    · next w hnext =>
      obtain rfl := Option.some.inj hstep
      exact h.walk (stepsTo_of_next hnext)
    · cases hstep
  | insert batch =>
    simp only [Concurrent.machine, Concurrent.step] at hstep
    split at hstep
    · cases hstep
    · obtain ⟨s, hs, rfl⟩ := Option.map_eq_some_iff.mp hstep
      exact h.insert hG hs

/-- **No row is half expanded** in a run in which no other transaction commits a
row between the two queries of a relation that both match. -/
theorem no_half_expanded_of_noLateChild (sch : Schema M F X) (cap : ℕ) (user : Option ℕ)
    (s : Store M F X) (root : Key M) (es : List (Event M F X)) (c : Concurrent M F X)
    (hG : (Concurrent.machine sch cap user root).Meets (NoLateChild cap) (.start s root) es)
    (h : (Concurrent.machine sch cap user root).run (.start s root) es = some c) :
    NoHalfExpanded sch cap c := by
  have hc : Attended sch cap c :=
    Machine.run_invariant Attended.step (attended_start sch cap s root) hG h
  intro hpc hfrontier f hf hdepth
  have htracked := hc.flips f hf hdepth
  -- at the end there is neither a frontier nor a row being expanded
  refine ⟨?_, ?_⟩
  · rcases htracked.place with hmem | hat | hexp
    · rw [hfrontier] at hmem
      cases hmem
    · rw [hpc] at hat
      exact absurd hat id
    · exact hexp
  · intro rel hrel hfollowed
    rcases htracked.children rel hrel hfollowed with hmem | hawait | hdone
    · rw [hfrontier] at hmem
      cases hmem
    · rw [hpc] at hawait
      exact absurd hawait id
    · exact hdone

/-- A walk that is left alone meets the guard. -/
theorem meets_walk (sch : Schema M F X) (cap : ℕ) (user : Option ℕ) (root : Key M) :
    ∀ (times : List ℕ) (c : Concurrent M F X),
      (Concurrent.machine sch cap user root).Meets (NoLateChild cap) c (times.map .walk) := by
  intro times
  induction times with
  | nil => exact fun _ => trivial
  | cons now times ih => exact fun c => ⟨by simp [NoLateChild], fun c' _ => ih c'⟩

/-- A root, saved, and one child. -/
def rootAndChild : Store Unit Unit Unit where
  rows := [⟨(), 0, false, 0, none, fun _ => none, ()⟩, ⟨(), 1, true, 0, none, fun _ => some 0, ()⟩]
  nodup := by decide

/-- A child of that child, with a child of its own. -/
def lateRows : List (Row Unit Unit Unit) :=
  [⟨(), 2, true, 0, none, fun _ => some 1, ()⟩, ⟨(), 3, true, 0, none, fun _ => some 2, ()⟩]

/-- Committed between the two queries for the children of row 1, row 2 is
deactivated and never expanded. -/
theorem late_row_not_expanded :
    ¬ ∀ (sch : Schema Unit Unit Unit) (cap : ℕ) (user : Option ℕ) (s : Store Unit Unit Unit)
      (root : Key Unit) (es : List (Event Unit Unit Unit)) (c : Concurrent Unit Unit Unit),
      (Concurrent.machine sch cap user root).run (.start s root) es = some c →
        NoHalfExpanded sch cap c := by
  intro halways
  have hend := halways selfSchema 10 none rootAndChild ⟨(), 0⟩
    ([0, 1, 2, 3, 4, 5].map .walk ++ [.insert lateRows, .walk 6, .walk 7]) _ rfl rfl rfl
    ⟨⟨(), 2⟩, 2, rootAndChild.rows.map (fun r => if r.pk = 1 then selfSchema.deactivate none 2 r
      else r) ++ lateRows⟩ (List.mem_cons_of_mem _ (List.mem_singleton_self _)) (by decide)
  exact absurd hend.1 (by decide)

/-- Committed before the walk starts, the same rows are all expanded. -/
theorem early_rows_expanded :
    ∃ c, (Concurrent.machine selfSchema 10 none ⟨(), 0⟩).run (.start rootAndChild ⟨(), 0⟩)
        (.insert lateRows :: (List.range 16).map .walk) = some c ∧
      c.walk.pc = .idle ∧ c.walk.frontier = [] ∧ NoHalfExpanded selfSchema 10 c := by
  refine ⟨_, rfl, rfl, rfl, ?_⟩
  refine no_half_expanded_of_noLateChild selfSchema 10 none rootAndChild ⟨(), 0⟩
    (.insert lateRows :: (List.range 16).map .walk) _ ?_ rfl
  have hbefore : NoLateChild 10 (.start rootAndChild ⟨(), 0⟩) (.insert lateRows) := by
    simp [NoLateChild, Concurrent.start, Walk.start]
  exact Machine.meets_cons hbefore rfl (meets_walk selfSchema 10 none ⟨(), 0⟩ (List.range 16) _)

end Cascade

end DjangoBoilerplate
