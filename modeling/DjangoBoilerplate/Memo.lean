import Mathlib.Tactic

/-!
# Caches keyed by a part of the question

A function behind a cache. The key is computed from the question and need not determine
the answer; a question without a key is not cached. Asked a list of questions, an empty
cache gives the right answers exactly if no two of the questions have one key and
different answers (`askAll_eq_map_iff`).
-/

namespace DjangoBoilerplate

namespace Memo

universe u v w

variable {Q : Type u} {K : Type v} {B : Type w}

section Questions

variable (key : Q → Option K) (answer : Q → B)

/-- The cache holds no wrong answer to the questions. -/
def Serves (cache : K → Option B) (qs : List Q) : Prop :=
  ∀ q ∈ qs, ∀ k b, key q = some k → cache k = some b → b = answer q

/-- Questions under one key have one answer. -/
def Consistent (qs : List Q) : Prop :=
  ∀ q ∈ qs, ∀ q' ∈ qs, ∀ k, key q = some k → key q' = some k → answer q = answer q'

variable {key answer} {cache : K → Option B} {q : Q} {qs : List Q}

theorem serves_cons : Serves key answer cache (q :: qs) ↔
    (∀ k b, key q = some k → cache k = some b → b = answer q) ∧ Serves key answer cache qs :=
  List.forall_mem_cons

theorem consistent_cons : Consistent key answer (q :: qs) ↔
    (∀ q' ∈ qs, ∀ k, key q = some k → key q' = some k → answer q' = answer q) ∧
      Consistent key answer qs := by
  refine ⟨?_, ?_⟩
  · intro h
    refine ⟨?_, ?_⟩
    · intro q' hq' k hk hk'
      exact h q' (List.mem_cons_of_mem q hq') q List.mem_cons_self k hk' hk
    · intro p hp p' hp'
      exact h p (List.mem_cons_of_mem q hp) p' (List.mem_cons_of_mem q hp')
  · rintro ⟨hq, hqs⟩ p hp p' hp' k hk hk'
    rcases List.mem_cons.mp hp with rfl | hpqs
    · rcases List.mem_cons.mp hp' with rfl | hpqs'
      · rfl
      · exact (hq p' hpqs' k hk hk').symm
    · rcases List.mem_cons.mp hp' with rfl | hpqs'
      · exact hq p hpqs k hk' hk
      · exact hqs p hpqs p' hpqs' k hk hk'

end Questions

variable [DecidableEq K] (key : Q → Option K) (answer : Q → B)

/-- Answer a question, from the cache if its key is there. -/
def ask (cache : K → Option B) (q : Q) : B × (K → Option B) :=
  match key q with
  | none => (answer q, cache)
  | some k =>
    match cache k with
    | some b => (b, cache)
    | none => (answer q, Function.update cache k (some (answer q)))

/-- Answer some questions in turn. -/
def askAll : (K → Option B) → List Q → List B
  | _, [] => []
  | cache, q :: qs => (ask key answer cache q).1 :: askAll (ask key answer cache q).2 qs

variable {key answer} {cache : K → Option B} {q : Q} {qs : List Q} {k : K} {b : B}

/-- **Uncached**: the question is answered. -/
theorem ask_uncached (hkey : key q = none) : ask key answer cache q = (answer q, cache) := by
  simp only [ask, hkey]

/-- **Hit**: the answer comes from the cache. -/
theorem ask_hit (hkey : key q = some k) (hit : cache k = some b) :
    ask key answer cache q = (b, cache) := by
  simp only [ask, hkey, hit]

/-- **Miss**: the question is answered, and the answer kept. -/
theorem ask_miss (hkey : key q = some k) (hmiss : cache k = none) :
    ask key answer cache q = (answer q, Function.update cache k (some (answer q))) := by
  simp only [ask, hkey, hmiss]

/-- After a miss the cache serves the rest exactly if it did, and they agree with the
question. -/
theorem serves_update (hmiss : cache k = none) :
    Serves key answer (Function.update cache k (some b)) qs ↔
      (∀ q' ∈ qs, key q' = some k → answer q' = b) ∧ Serves key answer cache qs := by
  refine ⟨?_, ?_⟩
  · intro h
    refine ⟨?_, ?_⟩
    · intro q' hq' hk
      exact (h q' hq' k b hk (Function.update_self ..)).symm
    · intro q' hq' k' b' hk' hb'
      refine h q' hq' k' b' hk' ?_
      have hne : k' ≠ k := by
        rintro rfl
        cases hmiss.symm.trans hb'
      rw [Function.update_of_ne hne, hb']
  · rintro ⟨hb, hserves⟩ q' hq' k' b' hk' hb'
    rcases eq_or_ne k' k with rfl | hne
    · rw [Function.update_self] at hb'
      rw [hb q' hq' hk', Option.some.inj hb']
    · rw [Function.update_of_ne hne] at hb'
      exact hserves q' hq' k' b' hk' hb'

/-- From any cache: the answers are right exactly if the cache has none of them wrong and
the questions are consistent. -/
theorem askAll_eq_iff : askAll key answer cache qs = qs.map answer ↔
    Serves key answer cache qs ∧ Consistent key answer qs := by
  induction qs generalizing cache with
  | nil => simp [askAll, Serves, Consistent]
  | cons q qs ih =>
    rw [askAll, List.map_cons, List.cons.injEq, ih, serves_cons, consistent_cons]
    cases hkey : key q with
    | none => simp [ask_uncached hkey]
    | some k =>
      cases hk : cache k with
      | some b =>
        rw [ask_hit hkey hk]
        refine ⟨?_, ?_⟩
        · rintro ⟨rfl, hserves, hcons⟩
          refine ⟨⟨?_, hserves⟩, ?_, hcons⟩
          · intro k' b' hk' hb'
            obtain rfl := Option.some.inj hk'
            exact Option.some.inj (hb'.symm.trans hk)
          · intro q' hq' k' hk' hkey'
            obtain rfl := Option.some.inj hk'
            exact (hserves q' hq' k _ hkey' hk).symm
        · rintro ⟨⟨hb, hserves⟩, -, hcons⟩
          exact ⟨hb k b rfl hk, hserves, hcons⟩
      | none =>
        rw [ask_miss hkey hk, serves_update hk]
        refine ⟨?_, ?_⟩
        · rintro ⟨-, ⟨hq, hserves⟩, hcons⟩
          refine ⟨⟨?_, hserves⟩, ?_, hcons⟩
          · intro k' b' hk' hb'
            obtain rfl := Option.some.inj hk'
            cases hk.symm.trans hb'
          · intro q' hq' k' hk' hkey'
            obtain rfl := Option.some.inj hk'
            exact hq q' hq' hkey'
        · rintro ⟨⟨-, hserves⟩, hq, hcons⟩
          exact ⟨rfl, ⟨fun q' hq' hkey' => hq q' hq' k rfl hkey', hserves⟩, hcons⟩

/-- **The empty cache is transparent exactly for consistent questions.** -/
theorem askAll_eq_map_iff :
    askAll key answer (fun _ => none) qs = qs.map answer ↔ Consistent key answer qs := by
  rw [askAll_eq_iff]
  refine ⟨?_, ?_⟩
  · rintro ⟨-, hcons⟩
    exact hcons
  · intro hcons
    refine ⟨?_, hcons⟩
    intro q _ k b _ hb
    cases hb

end Memo

end DjangoBoilerplate
