import DjangoBoilerplate.Cascade

/-!
# The walk is a breadth-first search

The walk keeps no set of visited rows. What takes its place is `is_active`: the
rows a query can still see are those the walk has not pushed. `Simulates` says
so, and that the frontier is the queue of a search (`Search`) over the graph of
the rows that were active at the start. Every step of the walk is a step of that
search or none at all (`Simulates.step`), so the rows it deactivates are those
within `MAX_CASCADE_DEPTH` of the root.

The walk ends on every graph: a row is deactivated when it is pushed, so
`effort` (`Walk.effort`) decreases with every step.
-/

namespace DjangoBoilerplate

namespace Cascade

variable {M F X : Type} [DecidableEq M] (sch : Schema M F X)

/-! ## The graph -/

/-- The second row is an active `CASCADE` child of the first. -/
def Edge (s : Store M F X) (k v : Key M) : Prop :=
  ∃ rel ∈ sch.relatedObjects k.model, rel.Followed sch ∧
    ∃ r ∈ s.rows, r.key = v ∧ r.isActiveChild k rel = true

/-! ## The simulation -/

/-- What became of a row after `n` steps: deactivated at one of them if it was
active and has been pushed, as it was otherwise. -/
inductive RowAfter (user : Option ℕ) (now : ℕ → ℕ) (n : ℕ) (pushed : List (Key M × ℕ))
    (r : Row M F X) : Row M F X → Prop where
  /-- pushed -/
  | deactivated {e i : ℕ} (hactive : r.isActive = true) (hpushed : (r.key, e) ∈ pushed)
      (hi : i < n) : RowAfter user now n pushed r (sch.deactivate user (now i) r)
  /-- not pushed -/
  | same (hnot : r.isActive = true → ∀ e, (r.key, e) ∉ pushed) :
    RowAfter user now n pushed r r

/-- The relation has been dealt with. -/
def Handled (s₀ : Store M F X) (cur : Key M) (pushed : List (Key M × ℕ)) (rel : Rel M F) :
    Prop :=
  rel.Safe sch ∧ (rel.Followed sch →
    ∀ r ∈ s₀.rows, r.isActiveChild cur rel = true → ∃ e, (r.key, e) ∈ pushed)

/-- Where the walk stands, in terms of the search. -/
inductive PcSim (s₀ s : Store M F X) (pushed : List (Key M × ℕ)) :
    Pc M F → Option (Key M × ℕ) → Prop where
  /-- nothing is being expanded -/
  | idle : PcSim s₀ s pushed .idle none
  /-- some relations of the vertex are dealt with -/
  | relations {cur : Key M} {depth : ℕ} {rels : List (Rel M F)} (past : List (Rel M F))
      (hrels : sch.relatedObjects cur.model = past ++ rels)
      (hpast : ∀ rel ∈ past, Handled sch s₀ cur pushed rel) :
    PcSim s₀ s pushed (.relations cur depth rels) (some (cur, depth))
  /-- and the next one's children are known -/
  | selected {cur : Key M} {depth : ℕ} {rel : Rel M F} {children : List (Key M)}
      {rels : List (Rel M F)} (past : List (Rel M F))
      (hrels : sch.relatedObjects cur.model = past ++ rel :: rels)
      (hpast : ∀ rel ∈ past, Handled sch s₀ cur pushed rel) (hfollowed : rel.Followed sch)
      (hkind : rel.kind = .foreignKey) (hchildren : children = sch.select s cur rel) :
    PcSim s₀ s pushed (.selected cur depth rel children rels) (some (cur, depth))

/-- After `n` steps from the store `s₀` the walk is at this point of a search. -/
structure Simulates (cap : ℕ) (user : Option ℕ) (now : ℕ → ℕ) (s₀ : Store M F X) (root : Key M)
    (n : ℕ) (w : Walk M F X) (a : Search (Key M)) : Prop where
  /-- the search is in order -/
  layered : Layered (Edge sch s₀) root cap a
  /-- the frontier is the queue -/
  frontier : w.frontier = a.queue
  /-- the same rows were pushed -/
  pushed : w.pushed = a.pushed
  /-- the same row is being expanded -/
  pc : PcSim sch s₀ w.store a.pushed w.pc a.current
  /-- the rows are those of `s₀`, the pushed ones deactivated -/
  rows : ∃ g : Row M F X → Row M F X, w.store.rows = s₀.rows.map g ∧
    ∀ r ∈ s₀.rows, RowAfter sch user now n a.pushed r (g r)
  /-- no exception was in sight at the rows it is finished with -/
  safe : ∀ x ∈ a.finished, x.2 < cap → ∀ rel ∈ sch.relatedObjects x.1.model, rel.Safe sch

variable {sch} {cap : ℕ} {user : Option ℕ} {now : ℕ → ℕ} {s₀ : Store M F X} {root : Key M}
  {n : ℕ} {w w' : Walk M F X} {a : Search (Key M)}

theorem simulates_start (sch : Schema M F X) (cap : ℕ) (user : Option ℕ) (now : ℕ → ℕ)
    (s₀ : Store M F X) (root : Key M)
    (hroot : ∀ r ∈ s₀.rows, r.key = root → r.isActive = false) :
    Simulates sch cap user now s₀ root 0 (.start s₀ root) (.start root) := by
  refine ⟨layered_start _ _ _, rfl, rfl, .idle, ⟨id, (List.map_id _).symm, ?_⟩, ?_⟩
  · intro r hr
    apply RowAfter.same
    intro hactive e he
    have hkey : r.key = root := congrArg Prod.fst (List.mem_singleton.mp he)
    rw [hroot r hr hkey] at hactive
    cases hactive
  · simp [Search.start]

/-! ### The queries -/

omit [DecidableEq M] in
/-- A later step changes nothing about what became of a row. -/
theorem RowAfter.mono {m : ℕ} (hm : n ≤ m) {pushed : List (Key M × ℕ)} {r r' : Row M F X}
    (h : RowAfter sch user now n pushed r r') : RowAfter sch user now m pushed r r' := by
  cases h with
  | deactivated hactive hpushed hi => exact .deactivated hactive hpushed (hi.trans_le hm)
  | same hnot => exact .same hnot

/-- What a query sees of a row: it is an active child still, exactly if it was
one at the start and has not been pushed. -/
theorem RowAfter.isActiveChild_iff {pushed : List (Key M × ℕ)} {r r' : Row M F X}
    (h : RowAfter sch user now n pushed r r') (cur : Key M) (rel : Rel M F) :
    r'.isActiveChild cur rel = true ↔
      r.isActiveChild cur rel = true ∧ ∀ e, (r.key, e) ∉ pushed := by
  cases h with
  | @deactivated e i hactive hpushed hi =>
    refine ⟨?_, ?_⟩
    · intro h
      simp [Row.isActiveChild, Schema.deactivate] at h
    · rintro ⟨-, h⟩
      exact absurd hpushed (h e)
  | same hnot =>
    refine ⟨?_, ?_⟩
    · intro h
      refine ⟨h, hnot ?_⟩
      simp only [Row.isActiveChild, Bool.and_eq_true] at h
      exact h.2
    · exact And.left

omit [DecidableEq M] in
/-- The names of rows are unaffected. -/
theorem RowAfter.key_eq {pushed : List (Key M × ℕ)} {r r' : Row M F X}
    (h : RowAfter sch user now n pushed r r') : r'.key = r.key := by
  cases h with
  | deactivated hactive hpushed hi => rfl
  | same hnot => rfl

/-- The rows of a `SELECT` have distinct names. -/
theorem select_nodup (sch : Schema M F X) (s : Store M F X) (cur : Key M) (rel : Rel M F) :
    (sch.select s cur rel).Nodup := by
  have hperm := (sch.ordering_perm rel.relatedModel
    (s.rows.filter fun r => r.isActiveChild cur rel)).map Row.key
  rw [Schema.select, hperm.nodup_iff]
  exact s.nodup.sublist (List.filter_sublist.map _)

theorem mem_select {s : Store M F X} {cur : Key M} {rel : Rel M F} {v : Key M} :
    v ∈ sch.select s cur rel ↔ ∃ r ∈ s.rows, r.isActiveChild cur rel = true ∧ r.key = v := by
  have hperm := (sch.ordering_perm rel.relatedModel
    (s.rows.filter fun r => r.isActiveChild cur rel)).map Row.key
  rw [Schema.select, hperm.mem_iff]
  simp [and_assoc]

/-- Within a walk, a `SELECT` yields the children that were active at the start
and have not been pushed. -/
theorem Simulates.mem_select (h : Simulates sch cap user now s₀ root n w a) {cur : Key M}
    {rel : Rel M F} {v : Key M} :
    v ∈ sch.select w.store cur rel ↔
      ∃ r ∈ s₀.rows, r.isActiveChild cur rel = true ∧ r.key = v ∧ ∀ e, (v, e) ∉ a.pushed := by
  obtain ⟨g, hg, hrows⟩ := h.rows
  rw [Cascade.mem_select]
  refine ⟨?_, ?_⟩
  · rintro ⟨r', hr', hchild, rfl⟩
    rw [hg] at hr'
    obtain ⟨r, hr, rfl⟩ := List.mem_map.mp hr'
    obtain ⟨hold, hnot⟩ := ((hrows r hr).isActiveChild_iff cur rel).mp hchild
    rw [(hrows r hr).key_eq]
    exact ⟨r, hr, hold, rfl, hnot⟩
  · rintro ⟨r, hr, hold, rfl, hnot⟩
    refine ⟨g r, hg ▸ List.mem_map_of_mem hr, ?_, (hrows r hr).key_eq⟩
    exact ((hrows r hr).isActiveChild_iff cur rel).mpr ⟨hold, hnot⟩

/-- What the `UPDATE` of a relation makes of a row, when the children are the
rows that were active at the start and have not been pushed. -/
theorem RowAfter.update {pushed : List (Key M × ℕ)} {r r' : Row M F X}
    (h : RowAfter sch user now n pushed r r') {cur : Key M} {rel : Rel M F} {depth : ℕ}
    {children : List (Key M)}
    (hmem : r.key ∈ children ↔ r.isActiveChild cur rel = true ∧ ∀ e, (r.key, e) ∉ pushed) :
    RowAfter sch user now (n + 1) (pushed ++ children.map fun v => (v, depth + 1)) r
      (if r'.isActiveChild cur rel then sch.deactivate user (now n) r' else r') := by
  have hiff := h.isActiveChild_iff cur rel
  cases h with
  | @deactivated e i hactive hpushed hi =>
    have hnot : ¬ (sch.deactivate user (now i) r).isActiveChild cur rel = true :=
      fun hc => (hiff.mp hc).2 e hpushed
    rw [if_neg hnot]
    exact .deactivated hactive (List.mem_append_left _ hpushed) (hi.trans (Nat.lt_succ_self n))
  | same hnot =>
    split
    · next hchild =>
      have hactive : r.isActive = true := by
        simp only [Row.isActiveChild, Bool.and_eq_true] at hchild
        exact hchild.2
      refine .deactivated (e := depth + 1) hactive ?_ (Nat.lt_succ_self n)
      have hkey := hmem.mpr ⟨hchild, hnot hactive⟩
      exact List.mem_append_right _ (List.mem_map.mpr ⟨r.key, hkey, rfl⟩)
    · next hchild =>
      apply RowAfter.same
      intro hactive e he
      rcases List.mem_append.mp he with he | he
      · exact hnot hactive e he
      · obtain ⟨v, hv, heq⟩ := List.mem_map.mp he
        obtain ⟨rfl, -⟩ := Prod.mk.inj heq
        exact hchild (hmem.mp hv).1

/-! ### The steps -/

/-- Rows as they were, one step later. -/
theorem Simulates.rows_succ (h : Simulates sch cap user now s₀ root n w a) :
    ∃ g : Row M F X → Row M F X, w.store.rows = s₀.rows.map g ∧
      ∀ r ∈ s₀.rows, RowAfter sch user now (n + 1) a.pushed r (g r) := by
  obtain ⟨g, hg, hrows⟩ := h.rows
  exact ⟨g, hg, fun r hr => (hrows r hr).mono (Nat.le_succ n)⟩

/-- The children are deactivated and pushed. -/
theorem Simulates.step_update {s : Store M F X} {frontier pushed : List (Key M × ℕ)}
    {cur : Key M} {depth : ℕ} {rel : Rel M F} {children : List (Key M)} {rels : List (Rel M F)}
    (h : Simulates sch cap user now s₀ root n
      ⟨s, frontier, .selected cur depth rel children rels, pushed⟩ a)
    (hstamp : sch.hasUpdatedAt rel.relatedModel = true) :
    ∃ a', Simulates sch cap user now s₀ root (n + 1)
      ⟨s.update (fun r => r.isActiveChild cur rel) (sch.deactivate user (now n))
          (sch.deactivate_key user (now n)),
        frontier ++ children.map fun k => (k, depth + 1), .relations cur depth rels,
        pushed ++ children.map fun k => (k, depth + 1)⟩ a' := by
  obtain ⟨P, current, Q⟩ := a
  have hpc := h.pc
  have hmem : ∀ v, v ∈ sch.select s cur rel ↔ ∃ r ∈ s₀.rows, r.isActiveChild cur rel = true ∧
      r.key = v ∧ ∀ e, (v, e) ∉ Search.pushed ⟨P, current, Q⟩ := fun v => h.mem_select
  cases hpc with
  | selected past hrels hpast hfollowed hkind hchildren =>
    obtain rfl : children = sch.select s cur rel := hchildren
    have hpush : Search.pushed ⟨P, some (cur, depth),
          Q ++ (sch.select s cur rel).map fun v => (v, depth + 1)⟩ =
        Search.pushed ⟨P, some (cur, depth), Q⟩ ++
          (sch.select s cur rel).map fun v => (v, depth + 1) := by
      simp [Search.pushed]
    refine ⟨⟨P, some (cur, depth), Q ++ (sch.select s cur rel).map fun v => (v, depth + 1)⟩,
      h.layered.push ?_ (select_nodup sch s cur rel) ?_, ?_, ?_, ?_, ?_, h.safe⟩
    · intro v hv
      obtain ⟨r, hr, hchild, hkey, -⟩ := (hmem v).mp hv
      exact ⟨rel, by simp [hrels], hfollowed, r, hr, hkey, hchild⟩
    · intro v hv
      obtain ⟨-, -, -, -, hnot⟩ := (hmem v).mp hv
      exact hnot
    · exact congrArg (· ++ _) h.frontier
    · rw [hpush]
      exact congrArg (· ++ _) h.pushed
    · refine .relations (past ++ [rel]) (by simp [hrels]) ?_
      rw [hpush]
      intro rel' hrel'
      rcases List.mem_append.mp hrel' with hrel' | hrel'
      · refine ⟨(hpast rel' hrel').1, ?_⟩
        intro hf r hr hchild
        obtain ⟨e, he⟩ := (hpast rel' hrel').2 hf r hr hchild
        exact ⟨e, List.mem_append_left _ he⟩
      · obtain rfl := List.mem_singleton.mp hrel'
        refine ⟨fun _ => ⟨hkind, hstamp⟩, ?_⟩
        intro _ r hr hchild
        -- pushed before, or selected now
        by_cases hold : ∃ e, (r.key, e) ∈ Search.pushed ⟨P, some (cur, depth), Q⟩
        · obtain ⟨e, he⟩ := hold
          exact ⟨e, List.mem_append_left _ he⟩
        · have hnot : ∀ e, (r.key, e) ∉ Search.pushed ⟨P, some (cur, depth), Q⟩ :=
            fun e he => hold ⟨e, he⟩
          have hsel := (hmem r.key).mpr ⟨r, hr, hchild, rfl, hnot⟩
          exact ⟨depth + 1, List.mem_append_right _ (List.mem_map.mpr ⟨r.key, hsel, rfl⟩)⟩
    · obtain ⟨g, hg, hrows⟩ := h.rows
      refine ⟨fun r => if (g r).isActiveChild cur rel then sch.deactivate user (now n) (g r)
        else g r, ?_, ?_⟩
      · change s.rows.map _ = _
        rw [show s.rows = s₀.rows.map g from hg, List.map_map]
        rfl
      · intro r hr
        rw [hpush]
        refine (hrows r hr).update ?_
        rw [hmem]
        refine ⟨?_, ?_⟩
        · rintro ⟨r₁, hr₁, hchild, hkey, hnot⟩
          obtain rfl := s₀.eq_of_key_eq hr₁ hr hkey
          exact ⟨hchild, hnot⟩
        · rintro ⟨hchild, hnot⟩
          exact ⟨r, hr, hchild, rfl, hnot⟩

/-- **Step lemma.** A step of the walk is a step of the search, or none. -/
theorem Simulates.step (h : Simulates sch cap user now s₀ root n w a)
    (hstep : StepsTo sch cap user (now n) w w') :
    ∃ a', Simulates sch cap user now s₀ root (n + 1) w' a' := by
  obtain ⟨P, current, Q⟩ := a
  cases hstep with
  | @skip s cur depth rest pushed hcap =>
    obtain rfl : (cur, depth) :: rest = Q := h.frontier
    have hpc := h.pc
    cases hpc
    have heq : Search.pushed ⟨P ++ [(cur, depth)], none, rest⟩ =
        Search.pushed ⟨P, none, (cur, depth) :: rest⟩ :=
      (Search.pushed_finish P rest (cur, depth)).trans
        (Search.pushed_cons P rest (cur, depth)).symm
    refine ⟨_, h.layered.step (.skip hcap), rfl, h.pushed.trans heq.symm, .idle, ?_, ?_⟩
    · rw [heq]
      exact h.rows_succ
    · intro x hx hlt
      rcases List.mem_append.mp hx with hx | hx
      · exact h.safe x hx hlt
      · obtain rfl := List.mem_singleton.mp hx
        exact absurd hcap (Nat.not_le.mpr hlt)
  | @pop s cur depth rest pushed hcap =>
    obtain rfl : (cur, depth) :: rest = Q := h.frontier
    have hpc := h.pc
    cases hpc
    have hcons := Search.pushed_cons P rest (cur, depth)
    refine ⟨_, h.layered.step (.pop hcap), rfl, h.pushed.trans hcons,
      .relations [] rfl (by simp), ?_, h.safe⟩
    rw [← hcons]
    exact h.rows_succ
  | @ignore s frontier pushed cur depth rel rels hnot =>
    -- a relation that is not followed counts as dealt with
    have hpc := h.pc
    cases hpc with
    | relations past hrels hpast =>
      refine ⟨_, h.layered, h.frontier, h.pushed, .relations (past ++ [rel]) (by simp [hrels]) ?_,
        h.rows_succ, h.safe⟩
      intro rel' hrel'
      rcases List.mem_append.mp hrel' with hrel' | hrel'
      · exact hpast rel' hrel'
      · obtain rfl := List.mem_singleton.mp hrel'
        exact ⟨fun hf => absurd hf hnot, fun hf => absurd hf hnot⟩
  | select hfollowed hkind =>
    have hpc := h.pc
    cases hpc with
    | relations past hrels hpast =>
      exact ⟨_, h.layered, h.frontier, h.pushed, .selected past hrels hpast hfollowed hkind rfl,
        h.rows_succ, h.safe⟩
  | update hstamp => exact h.step_update hstamp
  | @finish s frontier pushed cur depth =>
    -- every relation is dealt with, so the search is finished with the row
    have hpc := h.pc
    cases hpc with
    | relations past hrels hpast =>
      rw [List.append_nil] at hrels
      have hall : ∀ v, Edge sch s₀ cur v →
          ∃ e, (v, e) ∈ Search.pushed ⟨P, some (cur, depth), Q⟩ := by
        rintro v ⟨rel, hrel, hfollowed, r, hr, rfl, hchild⟩
        exact (hpast rel (hrels ▸ hrel)).2 hfollowed r hr hchild
      have heq := Search.pushed_finish P Q (cur, depth)
      refine ⟨_, h.layered.step (.finish hall), h.frontier, h.pushed.trans heq.symm, .idle, ?_, ?_⟩
      · rw [heq]
        exact h.rows_succ
      · intro x hx hlt rel hrel
        rcases List.mem_append.mp hx with hx | hx
        · exact h.safe x hx hlt rel hrel
        · obtain rfl := List.mem_singleton.mp hx
          exact (hpast rel (hrels ▸ hrel)).1

/-- An exception is a relation of a row within the cap that is not safe. -/
theorem Simulates.raise (h : Simulates sch cap user now s₀ root n w a) {e : Raise}
    (hnext : next sch cap user (now n) w = .raise e) :
    ∃ m < cap, ∃ k, Path (Edge sch s₀) root m k ∧
      ∃ rel ∈ sch.relatedObjects k.model, ¬ rel.Safe sch := by
  obtain ⟨s, frontier, pc, pushed⟩ := w
  obtain ⟨P, current, Q⟩ := a
  have hcur : ∀ {cur : Key M} {depth : ℕ}, current = some (cur, depth) →
      depth < cap ∧ Path (Edge sch s₀) root depth cur := by
    rintro cur depth rfl
    refine ⟨h.layered.current_lt _ rfl, h.layered.path (cur, depth) ?_⟩
    simp [Search.pushed]
  have hpc := h.pc
  cases hpc with
  | idle =>
    rcases frontier with _ | ⟨⟨cur, depth⟩, rest⟩
    · cases hnext
    · simp only [next] at hnext
      split at hnext <;> cases hnext
  | @relations cur depth rels past hrels hpast =>
    obtain ⟨hlt, hpath⟩ := hcur rfl
    rcases rels with _ | ⟨rel, rels⟩
    · cases hnext
    · refine ⟨depth, hlt, cur, hpath, rel, by simp [hrels], ?_⟩
      simp only [next] at hnext
      split at hnext
      · cases hnext
      · next honDelete =>
        split at hnext
        · cases hnext
        · next hactive =>
          split at hnext
          · next hkind =>
            intro hsafe
            have hf : rel.Followed sch := ⟨not_not.mp honDelete, by simpa using hactive⟩
            rw [(hsafe hf).1] at hkind
            cases hkind
          · cases hnext
  | @selected cur depth rel children rels past hrels hpast hfollowed hkind hchildren =>
    obtain ⟨hlt, hpath⟩ := hcur rfl
    refine ⟨depth, hlt, cur, hpath, rel, by simp [hrels], ?_⟩
    simp only [next] at hnext
    split at hnext
    · next hstamp =>
      intro hsafe
      rw [(hsafe hfollowed).2] at hstamp
      cases hstamp
    · cases hnext

/-- At the end nothing is open. -/
theorem Simulates.done (h : Simulates sch cap user now s₀ root n w a)
    (hnext : next sch cap user (now n) w = .done) : a.current = none ∧ a.queue = [] := by
  obtain ⟨hpc, hfrontier⟩ := next_done hnext
  have hsim := h.pc
  rw [hpc] at hsim
  refine ⟨?_, h.frontier.symm.trans hfrontier⟩
  generalize a.current = current at hsim ⊢
  cases hsim
  rfl

/-! ## The walk ends -/

/-- The steps a row on the frontier takes at most. -/
def Schema.cost (sch : Schema M F X) (m : M) : ℕ :=
  2 + 2 * (sch.relatedObjects m).length

/-- The steps left in the loop over the relations. -/
def Pc.effort : Pc M F → ℕ
  | .idle => 0
  | .relations _ _ rels => 1 + 2 * rels.length
  | .selected _ _ _ _ rels => 2 + 2 * rels.length

/-- The steps the active rows would take. -/
def Schema.potential (sch : Schema M F X) (rows : List (Row M F X)) : ℕ :=
  ((rows.filter fun r => r.isActive).map fun r => sch.cost r.model).sum

/-- A bound on the steps left: what is on the frontier, and what could still be
put there. -/
def Walk.effort (sch : Schema M F X) (w : Walk M F X) : ℕ :=
  (w.frontier.map fun x => sch.cost x.1.model).sum + sch.potential w.store.rows + w.pc.effort

/-- An `UPDATE` takes from the active rows what its children put on the
frontier. -/
theorem potential_update (sch : Schema M F X) (user : Option ℕ) (now : ℕ) (cur : Key M)
    (rel : Rel M F) (rows : List (Row M F X)) :
    sch.potential (rows.map fun r =>
        if r.isActiveChild cur rel then sch.deactivate user now r else r) +
      ((rows.filter fun r => r.isActiveChild cur rel).map fun r => sch.cost r.model).sum =
      sch.potential rows := by
  induction rows with
  | nil => rfl
  | cons r rows ih =>
    simp only [Schema.potential] at ih ⊢
    rcases hchild : r.isActiveChild cur rel with _ | _
    · rcases hactive : r.isActive with _ | _
      · simpa [hchild, hactive] using ih
      · simp only [hchild, hactive, List.map_cons, List.filter_cons, Bool.false_eq_true, if_false,
          if_true, List.sum_cons]
        omega
    · have hactive : r.isActive = true := by
        simp only [Row.isActiveChild, Bool.and_eq_true] at hchild
        exact hchild.2
      have hoff : (sch.deactivate user now r).isActive = false := rfl
      simp only [hchild, hactive, hoff, List.map_cons, List.filter_cons, Bool.false_eq_true,
        if_false, if_true, List.sum_cons]
      omega

/-- The children of a relation cost what their rows cost. -/
theorem cost_select (sch : Schema M F X) (s : Store M F X) (cur : Key M) (rel : Rel M F) :
    ((sch.select s cur rel).map fun k => sch.cost k.model).sum =
      ((s.rows.filter fun r => r.isActiveChild cur rel).map fun r => sch.cost r.model).sum := by
  have hperm := (sch.ordering_perm rel.relatedModel
    (s.rows.filter fun r => r.isActiveChild cur rel)).map fun r => sch.cost r.model
  rw [← hperm.sum_eq, Schema.select, List.map_map]
  rfl

/-- Every step takes some of the effort left. -/
theorem Simulates.effort_lt (h : Simulates sch cap user now s₀ root n w a)
    (hstep : StepsTo sch cap user (now n) w w') : w'.effort sch < w.effort sch := by
  obtain ⟨P, current, Q⟩ := a
  cases hstep with
  | skip hcap =>
    simp only [Walk.effort, List.map_cons, List.sum_cons, Schema.cost, Pc.effort]
    omega
  | pop hcap =>
    simp only [Walk.effort, List.map_cons, List.sum_cons, Schema.cost, Pc.effort]
    omega
  | ignore hnot =>
    simp only [Walk.effort, Pc.effort, List.length_cons]
    omega
  | select hfollowed hkind =>
    simp only [Walk.effort, Pc.effort, List.length_cons]
    omega
  | @update s frontier pushed cur depth rel children rels hstamp =>
    have hpc := h.pc
    cases hpc with
    | selected past hrels hpast hfollowed hkind hchildren =>
      obtain rfl : children = sch.select s cur rel := hchildren
      have hpot := potential_update sch user (now n) cur rel s.rows
      have hcost := cost_select sch s cur rel
      simp only [Walk.effort, Pc.effort, List.map_append, List.sum_append, List.map_map,
        Function.comp_def, Store.update]
      omega
  | finish =>
    simp only [Walk.effort, Pc.effort, List.length_nil]
    omega

/-- **Run lemma.** With enough fuel the walk ends, at the end of a search or in
an exception that a row within the cap is to blame for. -/
theorem Simulates.drive :
    ∀ {fuel n : ℕ} {w : Walk M F X} {a : Search (Key M)},
      Simulates sch cap user now s₀ root n w a → w.effort sch < fuel →
      (∃ w' m P, Cascade.drive sch cap user now fuel n w = some (.ok w') ∧
        m ≤ n + w.effort sch ∧ Simulates sch cap user now s₀ root m w' ⟨P, none, []⟩) ∨
      ∃ e, Cascade.drive sch cap user now fuel n w = some (.error e) ∧
        ∃ m < cap, ∃ k, Path (Edge sch s₀) root m k ∧
          ∃ rel ∈ sch.relatedObjects k.model, ¬ rel.Safe sch := by
  intro fuel
  induction fuel with
  | zero =>
    intro n w a _ hfuel
    exact absurd hfuel (Nat.not_lt_zero _)
  | succ fuel ih =>
    intro n w a h hfuel
    rcases hnext : next sch cap user (now n) w with w' | _ | e
    · -- the walk goes on with less effort left
      obtain ⟨a', h'⟩ := h.step (stepsTo_of_next hnext)
      have hlt := h.effort_lt (stepsTo_of_next hnext)
      have hdrive : Cascade.drive sch cap user now (fuel + 1) n w =
          Cascade.drive sch cap user now fuel (n + 1) w' := by
        simp only [Cascade.drive, hnext]
      rw [hdrive]
      rcases ih h' (by omega) with ⟨w₁, m, P, hok, hm, hend⟩ | herror
      · exact Or.inl ⟨w₁, m, P, hok, by omega, hend⟩
      · exact Or.inr herror
    · obtain ⟨P, current, Q⟩ := a
      obtain ⟨rfl, rfl⟩ := h.done hnext
      exact Or.inl ⟨w, n, P, by simp only [Cascade.drive, hnext], Nat.le_add_right _ _, h⟩
    · exact Or.inr ⟨e, by simp only [Cascade.drive, hnext], h.raise hnext⟩

/-! ## What the walk does to the store -/

/-- The row is within reach: it was active, its model has `is_active`, and its
distance from the root, through rows that were active, is between 1 and the
cap. -/
def InReach (sch : Schema M F X) (cap : ℕ) (s : Store M F X) (root : Key M) (r : Row M F X) :
    Prop :=
  r.isActive = true ∧ sch.hasIsActive r.model = true ∧
    ∃ d, 1 ≤ d ∧ d ≤ cap ∧ IsDist (Edge sch s) root d r.key

/-- What a walk of at most `n` steps makes of a row: within reach `is_active`,
`updated_at` and, for a user and a model with that field, `updated_by` are
written; everything else stays. -/
def Swept (sch : Schema M F X) (cap : ℕ) (user : Option ℕ) (now : ℕ → ℕ) (n : ℕ)
    (s : Store M F X) (root : Key M) (r r' : Row M F X) : Prop :=
  (InReach sch cap s root r → ∃ i < n, r' = { r with
    isActive := false
    updatedAt := now i
    updatedBy := if user.isSome && sch.hasUpdatedBy r.model then user else r.updatedBy }) ∧
  (¬ InReach sch cap s root r → r' = r) ∧
  (InReach sch cap s root r ↔ r.isActive = true ∧ r'.isActive = false)

/-- The rows at a distance from the root are children of some relation. -/
theorem exists_row_of_path {s : Store M F X} {d : ℕ} {v : Key M}
    (hpath : Path (Edge sch s) root d v) (hd : 1 ≤ d) :
    ∃ r ∈ s.rows, r.key = v ∧ r.isActive = true ∧ sch.hasIsActive r.model = true := by
  cases hpath with
  | refl => exact absurd hd (by decide)
  | snoc _ hedge =>
    obtain ⟨rel, -, ⟨-, hactive⟩, r, hr, hkey, hchild⟩ := hedge
    simp only [Row.isActiveChild, Row.refersTo, Bool.and_eq_true, beq_iff_eq] at hchild
    exact ⟨r, hr, hkey, hchild.2, hchild.1.1 ▸ hactive⟩

/-- At the end of a walk from an inactive root, the rows that were pushed and
active are those within reach. -/
theorem Simulates.inReach_iff {P : List (Key M × ℕ)}
    (h : Simulates sch cap user now s₀ root n w ⟨P, none, []⟩)
    (hroot : ∀ r ∈ s₀.rows, r.key = root → r.isActive = false) {r : Row M F X}
    (hr : r ∈ s₀.rows) :
    InReach sch cap s₀ root r ↔ r.isActive = true ∧ ∃ e, (r.key, e) ∈ P := by
  refine ⟨?_, ?_⟩
  · rintro ⟨hactive, -, d, -, hcap, hdist⟩
    exact ⟨hactive, d, (h.layered.mem_iff r.key d).mpr ⟨hcap, hdist⟩⟩
  · rintro ⟨hactive, e, he⟩
    obtain ⟨hcap, hdist⟩ := (h.layered.mem_iff r.key e).mp he
    have hpos : 1 ≤ e := by
      rcases e with _ | e
      · -- depth 0 is the root, which was inactive
        have hkey : r.key = root := by
          cases hdist.path
          rfl
        rw [hroot r hr hkey] at hactive
        cases hactive
      · exact Nat.succ_pos e
    obtain ⟨r₁, hr₁, hkey, -, hmodel⟩ := exists_row_of_path hdist.path hpos
    obtain rfl := s₀.eq_of_key_eq hr₁ hr hkey
    exact ⟨hactive, hmodel, e, hpos, hcap, hdist⟩

/-- And the store is swept. -/
theorem Simulates.swept {P : List (Key M × ℕ)} {N : ℕ} (hN : n ≤ N)
    (h : Simulates sch cap user now s₀ root n w ⟨P, none, []⟩)
    (hroot : ∀ r ∈ s₀.rows, r.key = root → r.isActive = false) :
    List.Forall₂ (Swept sch cap user now N s₀ root) s₀.rows w.store.rows := by
  obtain ⟨g, hg, hrows⟩ := h.rows
  rw [hg, List.forall₂_map_right_iff, List.forall₂_same]
  intro r hr
  have hiff := h.inReach_iff hroot hr
  have hP : Search.pushed ⟨P, none, []⟩ = P := by
    simp [Search.pushed]
  have hafter := hrows r hr
  rw [hP] at hafter
  generalize g r = r' at hafter ⊢
  cases hafter with
  | @deactivated e i hactive hpushed hi =>
    have hin : InReach sch cap s₀ root r := hiff.mpr ⟨hactive, e, hpushed⟩
    exact ⟨fun _ => ⟨i, hi.trans_le hN, rfl⟩, fun hnot => absurd hin hnot,
      fun _ => ⟨hactive, rfl⟩, fun _ => hin⟩
  | same hnot =>
    have hout : ¬ InReach sch cap s₀ root r := by
      intro hin
      obtain ⟨hactive, e, he⟩ := hiff.mp hin
      exact hnot hactive e he
    refine ⟨fun hin => absurd hin hout, fun _ => rfl, fun hin => absurd hin hout, ?_⟩
    rintro ⟨hactive, hinactive⟩
    rw [hactive] at hinactive
    cases hinactive

/-- **The cascade is exact.** Over plain foreign keys, where every model with
`is_active` has `updated_at`, the walk from an inactive root terminates, puts
each row on the frontier at most once, and sweeps the store. -/
theorem cascade_exact (sch : Schema M F X)
    (hplain : ∀ m, ∀ rel ∈ sch.relatedObjects m, rel.kind = .foreignKey)
    (hstamp : ∀ m, sch.hasIsActive m = true → sch.hasUpdatedAt m = true) (cap : ℕ)
    (user : Option ℕ) (now : ℕ → ℕ) (s : Store M F X) (root : Key M)
    (hroot : ∀ r ∈ s.rows, r.key = root → r.isActive = false) :
    ∃ N, ∀ fuel ≥ N, ∃ w, cascadeSoftDeleteBfs sch cap user now fuel s root = some (.ok w) ∧
      (w.pushed.map Prod.fst).Nodup ∧
      List.Forall₂ (Swept sch cap user now N s root) s.rows w.store.rows := by
  have hstart := simulates_start sch cap user now s root hroot
  refine ⟨(Walk.start s root).effort sch + 1, ?_⟩
  intro fuel hfuel
  rcases hstart.drive (Nat.lt_of_succ_le hfuel) with ⟨w, m, P, hok, hm, hend⟩ | hraise
  · refine ⟨w, hok, ?_, hend.swept (by omega) hroot⟩
    rw [hend.pushed]
    exact hend.layered.nodup
  · obtain ⟨-, -, -, -, k, -, rel, hrel, hunsafe⟩ := hraise
    exact absurd (fun hf => ⟨hplain _ rel hrel, hstamp _ hf.2⟩) hunsafe

/-- One model with a `CASCADE` foreign key to itself. -/
def selfSchema : Schema Unit Unit Unit where
  hasIsActive _ := true
  hasUpdatedAt _ := true
  hasUpdatedBy _ := true
  relatedObjects _ := [⟨(), (), .foreignKey, .cascade⟩]
  ordering _ rows := rows
  ordering_perm _ _ := .rfl

/-- A ring of three rows, the first of them inactive. -/
def ring : Store Unit Unit Unit where
  rows := [⟨(), 0, false, 0, none, fun _ => some 2, ()⟩,
    ⟨(), 1, true, 0, none, fun _ => some 0, ()⟩,
    ⟨(), 2, true, 0, none, fun _ => some 1, ()⟩]
  nodup := by decide

/-- The walk ends on the ring. -/
theorem cascade_exact_ring :
    ∃ N, ∀ fuel ≥ N, ∃ w,
      cascadeSoftDeleteBfs selfSchema 10 (some 7) id fuel ring ⟨(), 0⟩ = some (.ok w) ∧
        (w.pushed.map Prod.fst).Nodup ∧
        List.Forall₂ (Swept selfSchema 10 (some 7) id N ring ⟨(), 0⟩) ring.rows w.store.rows := by
  refine cascade_exact selfSchema ?_ (fun _ _ => rfl) 10 (some 7) id ring ⟨(), 0⟩ ?_
  · intro m rel hrel
    obtain rfl := List.mem_singleton.mp hrel
    rfl
  · decide

/-- There it deactivates the other two rows, each in its own layer. -/
example :
    (cascadeSoftDeleteBfs selfSchema 10 (some 7) id 20 ring ⟨(), 0⟩).map
        (fun out => out.toOption.map fun w =>
          (w.store.rows.map fun r => (r.isActive, r.updatedBy), w.pushed)) =
      some (some ([(false, none), (false, some 7), (false, some 7)],
        [(⟨(), 0⟩, 0), (⟨(), 1⟩, 1), (⟨(), 2⟩, 2)])) := rfl

end Cascade

end DjangoBoilerplate
