import Mathlib.Tactic

/-!
# Machines, schedules and run invariants

A concurrent component is modelled as a **machine**: a partial step function on
explicit states, one label per atomic step of one of its parties. A *schedule*
is a list of labels, so "every interleaving" is a quantifier over schedules,
and a concrete interleaving can be replayed by evaluation.

Safety over all interleavings comes from one rule, `Machine.run_invariant`:
what every step preserves holds after every schedule. The rule is relative to a
**guard** — a condition on the state before a step — so that it also covers the
runs in which some step is only ever taken under a side condition
(`Machine.Meets`).
-/

namespace DjangoBoilerplate

universe u v

/-- A machine: what each label does to a state, `none` where the step is not
enabled. -/
structure Machine (σ : Type u) (ℓ : Type v) : Type (max u v) where
  /-- one atomic step -/
  step : σ → ℓ → Option σ

namespace Machine

variable {σ : Type u} {ℓ : Type v} (M : Machine σ ℓ)

/-- Run a schedule. The run fails as soon as a label is not enabled. -/
def run : σ → List ℓ → Option σ
  | s, [] => some s
  | s, l :: ls => (M.step s l).bind fun t => run t ls

/-- Every step the schedule takes from `s` is taken in a state that meets `G`. -/
def Meets (G : σ → ℓ → Prop) : σ → List ℓ → Prop
  | _, [] => True
  | s, l :: ls => G s l ∧ ∀ t, M.step s l = some t → Meets G t ls

variable {M}

/-- Inversion: a successful run of `l :: ls` takes `l`, then runs `ls`. -/
theorem run_cons_eq_some {s t : σ} {l : ℓ} {ls : List ℓ}
    (h : M.run s (l :: ls) = some t) :
    ∃ m, M.step s l = some m ∧ M.run m ls = some t :=
  Option.bind_eq_some_iff.mp h

/-- The rest of a run, from the state its beginning leads to. -/
theorem run_of_append {ks : List ℓ} :
    ∀ {ls : List ℓ} {s m t : σ}, M.run s (ls ++ ks) = some t → M.run s ls = some m →
      M.run m ks = some t := by
  intro ls
  induction ls with
  | nil =>
    intro s m t h hm
    obtain rfl := Option.some.inj hm
    exact h
  | cons l ls ih =>
    intro s m t h hm
    obtain ⟨s₁, hl, hls⟩ := run_cons_eq_some h
    obtain ⟨s₂, hl', hls'⟩ := run_cons_eq_some hm
    obtain rfl : s₁ = s₂ := Option.some.inj (hl.symm.trans hl')
    exact ih hls hls'

/-- **The invariant rule.** What every step taken under the guard preserves
holds after every schedule whose steps all meet the guard. -/
theorem run_invariant {G : σ → ℓ → Prop} {I : σ → Prop}
    (hstep : ∀ {s l t}, I s → G s l → M.step s l = some t → I t) :
    ∀ {ls : List ℓ} {s t : σ}, I s → M.Meets G s ls → M.run s ls = some t → I t := by
  intro ls
  induction ls with
  | nil =>
    intro s t hI _ h
    obtain rfl := Option.some.inj h
    exact hI
  | cons l ls ih =>
    intro s t hI hG h
    obtain ⟨m, hl, hm⟩ := run_cons_eq_some h
    obtain ⟨hGl, hGls⟩ := hG
    exact ih (hstep hI hGl hl) (hGls m hl) hm

/-- Every schedule meets the trivial guard. -/
theorem meets_true (ls : List ℓ) (s : σ) : M.Meets (fun _ _ => True) s ls := by
  induction ls generalizing s with
  | nil => exact trivial
  | cons l ls ih => exact ⟨trivial, fun t _ => ih t⟩

/-- The unguarded form of the invariant rule. -/
theorem run_invariant' {I : σ → Prop}
    (hstep : ∀ {s l t}, I s → M.step s l = some t → I t)
    {ls : List ℓ} {s t : σ} (hI : I s) (h : M.run s ls = some t) : I t :=
  run_invariant (fun hI _ => hstep hI) hI (meets_true ls s) h

/-- The steps a run takes: one of them, with the state it is taken in, has the property. -/
def Takes (M : Machine σ ℓ) (s : σ) (ls : List ℓ) (P : σ → ℓ → Prop) : Prop :=
  ∃ ks l, ks ++ [l] <+: ls ∧ ∃ m, M.run s ks = some m ∧ P m l

/-- A run takes its last step in the state the rest leads to, -/
theorem takes_of_run {s m : σ} {ls : List ℓ} {l : ℓ} {P : σ → ℓ → Prop} (h : M.run s ls = some m)
    (hP : P m l) : M.Takes s (ls ++ [l]) P :=
  ⟨ls, l, List.prefix_rfl, m, h, hP⟩

/-- and those of its beginning. -/
theorem Takes.snoc {s : σ} {ls : List ℓ} {P : σ → ℓ → Prop} (h : M.Takes s ls P) (l : ℓ) :
    M.Takes s (ls ++ [l]) P := by
  obtain ⟨ks, k, hks, m, hm, hP⟩ := h
  exact ⟨ks, k, hks.trans (List.prefix_append ls [l]), m, hm, hP⟩

/-- A run that ends with `l`: `l` is taken in the state the rest leads to. -/
theorem run_snoc_eq_some {l : ℓ} :
    ∀ {ls : List ℓ} {s t : σ}, M.run s (ls ++ [l]) = some t →
      ∃ m, M.run s ls = some m ∧ M.step m l = some t := by
  intro ls
  induction ls with
  | nil =>
    intro s t h
    obtain ⟨m, hl, hm⟩ := run_cons_eq_some h
    obtain rfl := Option.some.inj hm
    exact ⟨s, rfl, hl⟩
  | cons k ls ih =>
    intro s t h
    obtain ⟨s₁, hk, hls⟩ := run_cons_eq_some h
    obtain ⟨m, hm, hl⟩ := ih hls
    exact ⟨m, by simp only [run, hk, Option.bind_some, hm], hl⟩

/-- **The invariant rule with the past.** The invariant may speak of the schedule so far, and so of
the states the run has passed through. -/
theorem run_history {s : σ} {J : List ℓ → σ → Prop} (hinit : J [] s)
    (hstep : ∀ {ls m l t}, M.run s ls = some m → J ls m → M.step m l = some t → J (ls ++ [l]) t) :
    ∀ {ls : List ℓ} {t : σ}, M.run s ls = some t → J ls t := by
  intro ls
  induction ls using List.reverseRecOn with
  | nil =>
    intro t h
    obtain rfl := Option.some.inj h
    exact hinit
  | append_singleton ls l ih =>
    intro t h
    obtain ⟨m, hm, hl⟩ := run_snoc_eq_some h
    exact hstep hm (ih hm) hl

/-- A guard on the label alone is met as soon as the schedule's labels meet it. -/
theorem meets_of_forall_mem {P : ℓ → Prop} {ls : List ℓ} {s : σ} (h : ∀ l ∈ ls, P l) :
    M.Meets (fun _ l => P l) s ls := by
  induction ls generalizing s with
  | nil => exact trivial
  | cons l ls ih =>
    obtain ⟨hl, hls⟩ := List.forall_mem_cons.mp h
    exact ⟨hl, fun t _ => ih hls⟩

/-- What the guard implies of a step holds of every step of a schedule that meets it. -/
theorem meets_imp {G H : σ → ℓ → Prop} (himp : ∀ s l, G s l → H s l) {ls : List ℓ} {s : σ}
    (h : M.Meets G s ls) : M.Meets H s ls := by
  induction ls generalizing s with
  | nil => exact trivial
  | cons l ls ih =>
    obtain ⟨hl, hls⟩ := h
    exact ⟨himp s l hl, fun t ht => ih (hls t ht)⟩

/-- A guard met by a step and along the rest of the schedule. -/
theorem meets_cons {G : σ → ℓ → Prop} {s t : σ} {l : ℓ} {ls : List ℓ} (hG : G s l)
    (hl : M.step s l = some t) (h : M.Meets G t ls) : M.Meets G s (l :: ls) := by
  refine ⟨hG, ?_⟩
  intro t' hl'
  obtain rfl : t = t' := Option.some.inj (hl.symm.trans hl')
  exact h

/-- A guard met along a schedule is met along its parts. -/
theorem meets_append {G : σ → ℓ → Prop} {ks : List ℓ} :
    ∀ {ls : List ℓ} {s m : σ}, M.Meets G s (ls ++ ks) → M.run s ls = some m →
      M.Meets G s ls ∧ M.Meets G m ks := by
  intro ls
  induction ls with
  | nil =>
    intro s m hG h
    obtain rfl := Option.some.inj h
    exact ⟨trivial, hG⟩
  | cons l ls ih =>
    intro s m hG h
    obtain ⟨t, hl, ht⟩ := run_cons_eq_some h
    obtain ⟨hGl, hGls⟩ := hG
    obtain ⟨hls, hks⟩ := ih (hGls t hl) ht
    exact ⟨meets_cons hGl hl hls, hks⟩

end Machine

/-- What a table holds after one of its entries was set. -/
theorem update_eq_some {α : Type u} {f : ℕ → Option α} {i j : ℕ} {x y : α}
    (h : Function.update f i (some x) j = some y) :
    (j = i ∧ y = x) ∨ (j ≠ i ∧ f j = some y) := by
  rcases eq_or_ne j i with rfl | hne
  · rw [Function.update_self] at h
    exact Or.inl ⟨rfl, (Option.some.inj h).symm⟩
  · rw [Function.update_of_ne hne] at h
    exact Or.inr ⟨hne, h⟩

end DjangoBoilerplate
