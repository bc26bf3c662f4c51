import Mathlib.Tactic

/-!
# Breadth-first search in layers

A search over an arbitrary edge relation, with a first-in first-out queue of
vertices and their depths and a cap on the depth of the vertices it expands.
The search is a relation on its states: it takes a vertex off the queue, pushes
successors that were never pushed before, in as many batches as it likes, and is
finished with the vertex once every successor has been pushed.

`Layered` is the invariant of such a search, and `Layered.mem_iff` what it comes
to when the queue is empty: the vertices that were pushed are those within `cap`
edges of the root, each at its distance.
-/

namespace DjangoBoilerplate

universe u

variable {κ : Type u}

/-- A path of the given length from the root. -/
inductive Path (E : κ → κ → Prop) (root : κ) : ℕ → κ → Prop where
  /-- the root itself -/
  | refl : Path E root 0 root
  /-- one more edge -/
  | snoc {n : ℕ} {k v : κ} (hpath : Path E root n k) (hedge : E k v) : Path E root (n + 1) v

/-- The length of a shortest path from the root. -/
structure IsDist (E : κ → κ → Prop) (root : κ) (n : ℕ) (v : κ) : Prop where
  /-- there is a path of this length -/
  path : Path E root n v
  /-- and none shorter -/
  le : ∀ m, Path E root m v → n ≤ m

/-- A larger edge relation has more paths. -/
theorem Path.mono {E E' : κ → κ → Prop} {root : κ} (hE : ∀ k v, E k v → E' k v) {n : ℕ} {v : κ}
    (h : Path E root n v) : Path E' root n v := by
  induction h with
  | refl => exact .refl
  | snoc _ hedge ih => exact .snoc ih (hE _ _ hedge)

/-- Edges back to the root shorten no path. -/
theorem Path.avoid_root {E : κ → κ → Prop} {root : κ} {n : ℕ} {v : κ} (h : Path E root n v) :
    ∃ m ≤ n, Path (fun a b => E a b ∧ b ≠ root) root m v := by
  induction h with
  | refl => exact ⟨0, le_rfl, .refl⟩
  | @snoc n k v _ hedge ih =>
    obtain ⟨m, hm, hpath⟩ := ih
    rcases eq_or_ne v root with rfl | hne
    · exact ⟨0, Nat.zero_le _, .refl⟩
    · exact ⟨m + 1, Nat.succ_le_succ hm, .snoc hpath ⟨hedge, hne⟩⟩

/-! ## The search -/

/-- A search: the vertices it is finished with, the one it is expanding, and the
queue, each with its depth. -/
structure Search (κ : Type u) : Type u where
  /-- finished with, oldest first -/
  finished : List (κ × ℕ)
  /-- being expanded -/
  current : Option (κ × ℕ)
  /-- the queue -/
  queue : List (κ × ℕ)

namespace Search

/-- Everything that was ever pushed, in that order. -/
def pushed (s : Search κ) : List (κ × ℕ) :=
  s.finished ++ s.current.toList ++ s.queue

/-- Only the root has been pushed. -/
def start (root : κ) : Search κ where
  finished := []
  current := none
  queue := [(root, 0)]

/-- The steps of a search. -/
inductive Step (E : κ → κ → Prop) (cap : ℕ) : Search κ → Search κ → Prop where
  /-- a vertex at the cap is not expanded -/
  | skip {P Q : List (κ × ℕ)} {k : κ} {d : ℕ} (hcap : cap ≤ d) :
    Step E cap ⟨P, none, (k, d) :: Q⟩ ⟨P ++ [(k, d)], none, Q⟩
  /-- the next vertex -/
  | pop {P Q : List (κ × ℕ)} {k : κ} {d : ℕ} (hcap : d < cap) :
    Step E cap ⟨P, none, (k, d) :: Q⟩ ⟨P, some (k, d), Q⟩
  /-- a batch of new successors -/
  | push {P Q : List (κ × ℕ)} {k : κ} {d : ℕ} {new : List κ} (hedge : ∀ v ∈ new, E k v)
      (hnodup : new.Nodup)
      (hnew : ∀ v ∈ new, ∀ e, (v, e) ∉ Search.pushed ⟨P, some (k, d), Q⟩) :
    Step E cap ⟨P, some (k, d), Q⟩ ⟨P, some (k, d), Q ++ new.map fun v => (v, d + 1)⟩
  /-- every successor has been pushed -/
  | finish {P Q : List (κ × ℕ)} {k : κ} {d : ℕ}
      (hall : ∀ v, E k v → ∃ e, (v, e) ∈ Search.pushed ⟨P, some (k, d), Q⟩) :
    Step E cap ⟨P, some (k, d), Q⟩ ⟨P ++ [(k, d)], none, Q⟩

end Search

/-- The invariant of a search. -/
structure Layered (E : κ → κ → Prop) (root : κ) (cap : ℕ) (s : Search κ) : Prop where
  /-- nothing is pushed twice -/
  nodup : (s.pushed.map Prod.fst).Nodup
  /-- the root was pushed -/
  root_mem : (root, 0) ∈ s.pushed
  /-- a depth is the length of a path -/
  path : ∀ x ∈ s.pushed, Path E root x.2 x.1
  /-- no depth is over the cap -/
  le_cap : ∀ x ∈ s.pushed, x.2 ≤ cap
  /-- the vertex being expanded is below it -/
  current_lt : ∀ x ∈ s.current, x.2 < cap
  /-- depths never decrease in the order of pushing -/
  sorted : s.pushed.Pairwise fun x y => x.2 ≤ y.2
  /-- at most two layers are open -/
  two_layers : ∀ x ∈ s.current.toList ++ s.queue, ∀ y ∈ s.current.toList ++ s.queue,
    y.2 ≤ x.2 + 1
  /-- a vertex it is finished with has its successors in the next layer or above -/
  closed : ∀ x ∈ s.finished, x.2 < cap → ∀ v, E x.1 v → ∃ e ≤ x.2 + 1, (v, e) ∈ s.pushed

variable {E : κ → κ → Prop} {root : κ} {cap : ℕ} {s t : Search κ}

theorem layered_start (E : κ → κ → Prop) (root : κ) (cap : ℕ) :
    Layered E root cap (.start root) := by
  refine ⟨?_, ?_, ?_, ?_, ?_, ?_, ?_, ?_⟩ <;> simp [Search.start, Search.pushed]
  exact .refl

/-- Taking the next vertex off the queue pushes nothing. -/
theorem Search.pushed_cons (P Q : List (κ × ℕ)) (x : κ × ℕ) :
    Search.pushed ⟨P, none, x :: Q⟩ = Search.pushed ⟨P, some x, Q⟩ := by
  simp [Search.pushed]

/-- Neither does being finished with it. -/
theorem Search.pushed_finish (P Q : List (κ × ℕ)) (x : κ × ℕ) :
    Search.pushed ⟨P ++ [x], none, Q⟩ = Search.pushed ⟨P, some x, Q⟩ := by
  simp [Search.pushed]

/-- While a vertex is being expanded, everything lies in its layer, the next one
or above. -/
theorem Layered.le_current {P Q : List (κ × ℕ)} {k : κ} {d : ℕ}
    (h : Layered E root cap ⟨P, some (k, d), Q⟩) :
    ∀ x ∈ Search.pushed ⟨P, some (k, d), Q⟩, x.2 ≤ d + 1 := by
  intro x hx
  rcases List.mem_append.mp hx with hx | hx
  · rcases List.mem_append.mp hx with hx | hx
    · -- finished vertices were pushed before this one
      have hle := (List.pairwise_append.mp h.sorted).1
      have := (List.pairwise_append.mp hle).2.2 x hx (k, d) (List.mem_singleton_self _)
      exact Nat.le_succ_of_le this
    · obtain rfl := List.mem_singleton.mp hx
      exact Nat.le_succ d
  · exact h.two_layers (k, d) (List.mem_cons_self ..) x (List.mem_cons_of_mem _ hx)

/-- And the queue lies in its layer or the next one. -/
theorem Layered.current_le {P Q : List (κ × ℕ)} {k : κ} {d : ℕ}
    (h : Layered E root cap ⟨P, some (k, d), Q⟩) : ∀ x ∈ (k, d) :: Q, d ≤ x.2 := by
  intro x hx
  rcases List.mem_cons.mp hx with rfl | hx
  · exact le_rfl
  · refine (List.pairwise_append.mp h.sorted).2.2 (k, d) ?_ x hx
    exact List.mem_append_right _ (List.mem_singleton_self _)

/-- A batch of new successors keeps the invariant. -/
theorem Layered.push {P Q : List (κ × ℕ)} {k : κ} {d : ℕ} {new : List κ}
    (h : Layered E root cap ⟨P, some (k, d), Q⟩) (hedge : ∀ v ∈ new, E k v)
    (hnodup : new.Nodup) (hnew : ∀ v ∈ new, ∀ e, (v, e) ∉ Search.pushed ⟨P, some (k, d), Q⟩) :
    Layered E root cap ⟨P, some (k, d), Q ++ new.map fun v => (v, d + 1)⟩ := by
  have hpushed : Search.pushed ⟨P, some (k, d), Q ++ new.map fun v => (v, d + 1)⟩ =
      Search.pushed ⟨P, some (k, d), Q⟩ ++ new.map fun v => (v, d + 1) := by
    simp [Search.pushed]
  have hmem : ∀ x, x ∈ Search.pushed ⟨P, some (k, d), Q ++ new.map fun v => (v, d + 1)⟩ →
      x ∈ Search.pushed ⟨P, some (k, d), Q⟩ ∨ (x.1 ∈ new ∧ x.2 = d + 1) := by
    intro x hx
    rw [hpushed] at hx
    rcases List.mem_append.mp hx with hx | hx
    · exact Or.inl hx
    · obtain ⟨v, hv, rfl⟩ := List.mem_map.mp hx
      exact Or.inr ⟨hv, rfl⟩
  have hd : d < cap := h.current_lt (k, d) rfl
  have hk : (k, d) ∈ Search.pushed ⟨P, some (k, d), Q⟩ := by
    simp [Search.pushed]
  refine ⟨?_, ?_, ?_, ?_, h.current_lt, ?_, ?_, ?_⟩
  · rw [hpushed, List.map_append, List.nodup_append]
    refine ⟨h.nodup, by simpa [Function.comp_def] using hnodup, ?_⟩
    rintro a ha b hb rfl
    obtain ⟨x, hx, rfl⟩ := List.mem_map.mp ha
    obtain ⟨y, hy, hxy⟩ := List.mem_map.mp hb
    obtain ⟨v, hv, rfl⟩ := List.mem_map.mp hy
    exact hnew v hv x.2 (by rw [show v = x.1 from hxy]; exact hx)
  · rw [hpushed]
    exact List.mem_append_left _ h.root_mem
  · intro x hx
    rcases hmem x hx with hx | ⟨hx, hd⟩
    · exact h.path x hx
    · rw [hd]
      exact (h.path (k, d) hk).snoc (hedge x.1 hx)
  · intro x hx
    rcases hmem x hx with hx | ⟨-, hx⟩
    · exact h.le_cap x hx
    · omega
  · rw [hpushed, List.pairwise_append]
    refine ⟨h.sorted, ?_, ?_⟩
    · rw [List.pairwise_map]
      exact List.pairwise_of_forall fun _ _ => le_rfl
    · intro x hx y hy
      obtain ⟨v, -, rfl⟩ := List.mem_map.mp hy
      exact h.le_current x hx
  · -- what is open is either open already, in the layers `d` and `d + 1`, or new
    have hopen : ∀ x ∈ (k, d) :: (Q ++ new.map fun v => (v, d + 1)), d ≤ x.2 ∧ x.2 ≤ d + 1 := by
      intro x hx
      rw [← List.cons_append] at hx
      rcases List.mem_append.mp hx with hx | hx
      · exact ⟨h.current_le x hx, h.two_layers (k, d) (List.mem_cons_self ..) x hx⟩
      · obtain ⟨v, -, rfl⟩ := List.mem_map.mp hx
        exact ⟨Nat.le_succ d, le_rfl⟩
    intro x hx y hy
    exact (hopen y hy).2.trans (Nat.succ_le_succ (hopen x hx).1)
  · intro x hx hlt v hv
    obtain ⟨e, he, hmem⟩ := h.closed x hx hlt v hv
    refine ⟨e, he, ?_⟩
    rw [hpushed]
    exact List.mem_append_left _ hmem

/-- Being finished with a vertex keeps the invariant. -/
theorem Layered.finish {P Q : List (κ × ℕ)} {k : κ} {d : ℕ}
    (h : Layered E root cap ⟨P, some (k, d), Q⟩)
    (hall : ∀ v, E k v → ∃ e, (v, e) ∈ Search.pushed ⟨P, some (k, d), Q⟩) :
    Layered E root cap ⟨P ++ [(k, d)], none, Q⟩ := by
  have heq := Search.pushed_finish P Q (k, d)
  refine ⟨heq ▸ h.nodup, heq ▸ h.root_mem, heq ▸ h.path, heq ▸ h.le_cap, by simp,
    heq ▸ h.sorted, ?_, ?_⟩
  · intro x hx y hy
    exact h.two_layers x (List.mem_cons_of_mem _ hx) y (List.mem_cons_of_mem _ hy)
  · intro x hx hlt v hv
    rw [heq]
    rcases List.mem_append.mp hx with hx | hx
    · exact h.closed x hx hlt v hv
    · obtain rfl := List.mem_singleton.mp hx
      obtain ⟨e, he⟩ := hall v hv
      exact ⟨e, h.le_current (v, e) he, he⟩

/-- **Step lemma.** Every step of a search keeps the invariant. -/
theorem Layered.step (h : Layered E root cap s) (hstep : Search.Step E cap s t) :
    Layered E root cap t := by
  cases hstep with
  | @skip P Q k d hcap =>
    have heq : Search.pushed ⟨P ++ [(k, d)], none, Q⟩ = Search.pushed ⟨P, none, (k, d) :: Q⟩ :=
      (Search.pushed_finish P Q (k, d)).trans (Search.pushed_cons P Q (k, d)).symm
    refine ⟨heq ▸ h.nodup, heq ▸ h.root_mem, heq ▸ h.path, heq ▸ h.le_cap, by simp,
      heq ▸ h.sorted, ?_, ?_⟩
    · intro x hx y hy
      exact h.two_layers x (List.mem_cons_of_mem _ hx) y (List.mem_cons_of_mem _ hy)
    · intro x hx hlt v hv
      rcases List.mem_append.mp hx with hx | hx
      · rw [heq]
        exact h.closed x hx hlt v hv
      · obtain rfl := List.mem_singleton.mp hx
        exact absurd hcap (Nat.not_le.mpr hlt)
  | @pop P Q k d hcap =>
    have heq := Search.pushed_cons P Q (k, d)
    refine ⟨heq ▸ h.nodup, heq ▸ h.root_mem, heq ▸ h.path, heq ▸ h.le_cap, ?_, heq ▸ h.sorted,
      h.two_layers, ?_⟩
    · intro x hx
      obtain rfl := Option.some.inj hx
      exact hcap
    · intro x hx hlt v hv
      rw [← heq]
      exact h.closed x hx hlt v hv
  | push hedge hnodup hnew => exact h.push hedge hnodup hnew
  | finish hall => exact h.finish hall

/-! ## What an empty queue means -/

/-- Once nothing is open, every vertex within the cap was pushed, no deeper than
any path to it. -/
theorem Layered.pushed_of_path {P : List (κ × ℕ)} (h : Layered E root cap ⟨P, none, []⟩) {n : ℕ}
    {v : κ} (hpath : Path E root n v) (hn : n ≤ cap) : ∃ e ≤ n, (v, e) ∈ P := by
  have hP : Search.pushed ⟨P, none, []⟩ = P := by
    simp [Search.pushed]
  -- along the path: its vertices are finished with, so the next ones were pushed
  induction hpath with
  | refl => exact ⟨0, le_rfl, hP ▸ h.root_mem⟩
  | @snoc n k v _ hedge ih =>
    obtain ⟨d, hd, hk⟩ := ih (Nat.le_of_succ_le hn)
    obtain ⟨e, he, hv⟩ := h.closed (k, d) hk (by dsimp only; omega) v hedge
    refine ⟨e, he.trans (Nat.succ_le_succ hd), hP ▸ hv⟩

/-- **Layers are distances.** Once nothing is open, the pushed vertices are those
within the cap, each with its distance from the root. -/
theorem Layered.mem_iff {P : List (κ × ℕ)} (h : Layered E root cap ⟨P, none, []⟩) (v : κ)
    (e : ℕ) : (v, e) ∈ P ↔ e ≤ cap ∧ IsDist E root e v := by
  have hP : Search.pushed ⟨P, none, []⟩ = P := by
    simp [Search.pushed]
  refine ⟨?_, ?_⟩
  · intro hv
    have hv' : (v, e) ∈ Search.pushed ⟨P, none, []⟩ := by
      rw [hP]
      exact hv
    have hcap : e ≤ cap := h.le_cap (v, e) hv'
    refine ⟨hcap, h.path (v, e) hv', ?_⟩
    intro m hm
    rcases Nat.lt_or_ge cap m with hlt | hle
    · exact hcap.trans hlt.le
    · -- a path of length `m` puts the vertex in at depth at most `m`, and it is in once
      obtain ⟨e', he', hmem⟩ := h.pushed_of_path hm hle
      have hnodup : (P.map Prod.fst).Nodup := hP ▸ h.nodup
      obtain ⟨-, rfl⟩ := Prod.mk.inj (List.inj_on_of_nodup_map hnodup hv hmem rfl)
      exact he'
  · rintro ⟨hcap, hdist⟩
    obtain ⟨e', he', hv⟩ := h.pushed_of_path hdist.path hcap
    have hpath : Path E root e' v := h.path (v, e') (hP.symm ▸ hv)
    obtain rfl : e = e' := le_antisymm (hdist.le e' hpath) he'
    exact hv

end DjangoBoilerplate
