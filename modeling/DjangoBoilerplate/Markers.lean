import Mathlib.Data.List.Infix

/-!
# Texts with markers

`partition sep s` cuts a list at the first place where `sep` stands in it. Where that is depends on
nothing that comes after it (`partition_append_right`), and a list that has no `sep` in it and ends
with something that `sep` has not may stand in front (`partition_of_not_infix`).
-/

namespace DjangoBoilerplate

namespace Markers

variable {α : Type} {sep : List α}

/-- What stands at the beginning of a list, and has not the element at the end of its first part,
stands in the first part. -/
theorem prefix_of_prefix_append_cons {a b : List α} {c : α} (hc : c ∉ sep)
    (h : sep <+: a ++ c :: b) : sep <+: a := by
  rcases List.prefix_or_prefix_of_prefix h ⟨c :: b, rfl⟩ with hle | ⟨t, rfl⟩
  · exact hle
  · rw [List.prefix_append_right_inj] at h
    cases t with
    | nil => simp
    | cons d t =>
      obtain rfl := (List.cons_prefix_cons.mp h).1
      exact absurd (List.mem_append_right a List.mem_cons_self) hc

/-- The same for what stands anywhere. -/
theorem infix_append_cons {a b : List α} {c : α} (hc : c ∉ sep) (h : sep <:+: a ++ c :: b) :
    sep <:+: a ∨ sep <:+: b := by
  induction a with
  | nil =>
    rcases List.infix_cons_iff.mp h with h | h
    · exact .inl (prefix_of_prefix_append_cons (a := []) hc h).isInfix
    · exact .inr h
  | cons d a ih =>
    rcases List.infix_cons_iff.mp h with h | h
    · exact .inl (prefix_of_prefix_append_cons hc h).isInfix
    · rcases ih h with h | h
      · exact .inl (List.infix_cons h)
      · exact .inr h

variable [DecidableEq α]

/-- What comes before and after the first `sep`, if there is one; `sep` is not empty. -/
def partition (sep : List α) : List α → Option (List α × List α)
  | [] => none
  | c :: s =>
    if sep <+: c :: s then some ([], (c :: s).drop sep.length)
    else (partition sep s).map fun parts => (c :: parts.1, parts.2)

theorem append_of_partition {s x y : List α} (h : partition sep s = some (x, y)) :
    s = x ++ (sep ++ y) := by
  induction s generalizing x with
  | nil => cases h
  | cons c s ih =>
    rw [partition] at h
    split at h
    · next hsep =>
      cases h
      obtain ⟨t, ht⟩ := hsep
      rw [← ht, List.drop_left, List.nil_append]
    · obtain ⟨⟨front, back⟩, hparts, heq⟩ := Option.map_eq_some_iff.mp h
      cases heq
      rw [List.cons_append, ← ih hparts]

/-- Is there a first place? -/
theorem partition_eq_none_iff (hsep : sep ≠ []) {s : List α} :
    partition sep s = none ↔ ¬ sep <:+: s := by
  induction s with
  | nil => simp [partition, hsep]
  | cons c s ih =>
    rw [partition, List.infix_cons_iff]
    split
    · next h => simp [h]
    · next h => simp [h, ih]

/-- The first place depends on nothing that comes after it. -/
theorem partition_append_right {x y : List α} (h : partition sep (x ++ (sep ++ y)) = some (x, y))
    (hsep : sep ≠ []) (z : List α) : partition sep (x ++ (sep ++ z)) = some (x, z) := by
  induction x with
  | nil =>
    obtain ⟨c, s, rfl⟩ := List.exists_cons_of_ne_nil hsep
    rw [List.nil_append, List.cons_append, partition, if_pos ⟨z, rfl⟩]
    simp
  | cons c x ih =>
    rw [List.cons_append, partition] at h ⊢
    split at h
    · cases h
    · next hnot =>
      have hnot' : ¬ sep <+: c :: (x ++ (sep ++ z)) := by
        intro hpre
        refine hnot ?_
        have hshort : sep <+: c :: (x ++ sep) :=
          List.prefix_of_prefix_length_le hpre ⟨z, by simp⟩ (by simp; omega)
        exact hshort.trans ⟨y, by simp⟩
      obtain ⟨⟨front, back⟩, hparts, heq⟩ := Option.map_eq_some_iff.mp h
      cases heq
      rw [if_neg hnot', ih hparts]
      rfl

/-- A list without a `sep` may stand in front, if it ends with something that `sep` has not. -/
theorem partition_of_not_infix (hsep : sep ≠ []) {x : List α} {c : α} (hc : c ∉ sep)
    (hx : ¬ sep <:+: x) (y : List α) :
    partition sep (x ++ c :: (sep ++ y)) = some (x ++ [c], y) := by
  induction x with
  | nil =>
    have hnot : ¬ sep <+: c :: (sep ++ y) := fun h =>
      hx (prefix_of_prefix_append_cons (a := []) hc h).isInfix
    have hfirst : partition sep ([] ++ (sep ++ y)) = some ([], y) := by
      obtain ⟨d, s, rfl⟩ := List.exists_cons_of_ne_nil hsep
      rw [List.nil_append, List.cons_append, partition, if_pos ⟨y, rfl⟩]
      simp
    rw [List.nil_append] at hfirst
    rw [List.nil_append, partition, if_neg hnot, hfirst]
    rfl
  | cons d x ih =>
    have hnot : ¬ sep <+: d :: (x ++ c :: (sep ++ y)) := fun h =>
      hx (prefix_of_prefix_append_cons (a := d :: x) hc h).isInfix
    rw [List.cons_append, partition, if_neg hnot, ih fun h => hx (List.infix_cons h)]
    rfl

end Markers

end DjangoBoilerplate
