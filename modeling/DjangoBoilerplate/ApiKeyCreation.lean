import DjangoBoilerplate.ApiKey

/-!
# Prefix collisions

`APIKey.create_key` catches `IntegrityError` and tries again, up to three times. A taken
prefix does not get that far: `BaseModel.save()` runs `full_clean()` first, which checks
the unique `prefix` against the stored rows and raises `ValidationError`. The loop does
not catch that, so the first attempt is the only one.
-/

namespace DjangoBoilerplate

namespace ApiKey

variable {clean : Row → Bool} {db : Db} {user : ℕ} {name : Str} {createdBy : Option ℕ}
  {gen : ℕ → Str} {now : ℕ}

/-- The first of the raw keys whose prefix no stored row has. -/
def firstFree (keys : List Row) (raws : List Str) : Option Str :=
  raws.find? fun raw => !prefixTaken keys (raw.take 8)

/-- What the docstring of `create_key` says: the first raw key with a free prefix is
inserted and returned, and `APIKeyGenerationError` is raised if there is none. -/
def Retries (db : Db) (user : ℕ) (name : Str) (createdBy : Option ℕ) (gen : ℕ → Str) (now : ℕ)
    (outcome : Except CreateError (Db × Row × Str)) : Prop :=
  match firstFree db.keys [gen 0, gen 1, gen 2] with
  | some raw => outcome = .ok ({ db with
      keys := db.keys ++ [newRow db user name createdBy now raw], nextPk := db.nextPk + 1 },
        newRow db user name createdBy now raw, raw)
  | none => outcome = .error .generation

/-- A valid row under a free prefix is inserted. -/
theorem saveNew_of_free {r : Row} (hclean : clean r = true)
    (hfree : prefixTaken db.keys r.keyPrefix = false) :
    saveNew clean db r = .ok { db with keys := db.keys ++ [r], nextPk := db.nextPk + 1 } := by
  simp [saveNew, hclean, hfree]

/-- Under a taken one `full_clean()` raises, before the constraint is asked. -/
theorem saveNew_of_taken {r : Row} (htaken : prefixTaken db.keys r.keyPrefix = true) :
    saveNew clean db r = .error .validation := by
  simp [saveNew, htaken]

/-- So the loop ends with its first attempt. -/
theorem createKey_of_free (hclean : clean (newRow db user name createdBy now (gen 0)) = true)
    (hfree : prefixTaken db.keys ((gen 0).take 8) = false) :
    createKey clean db user name createdBy gen now = .ok ({ db with
      keys := db.keys ++ [newRow db user name createdBy now (gen 0)], nextPk := db.nextPk + 1 },
        newRow db user name createdBy now (gen 0), gen 0) := by
  rw [createKey, createAttempts, saveNew_of_free hclean hfree]

theorem createKey_of_taken (htaken : prefixTaken db.keys ((gen 0).take 8) = true) :
    createKey clean db user name createdBy gen now = .error .validation := by
  have hsave : saveNew clean db (newRow db user name createdBy now (gen 0)) = .error .validation :=
    saveNew_of_taken htaken
  rw [createKey, createAttempts, hsave]

/-- No outcome of the documented loop is a `ValidationError`. -/
theorem not_retries_validation :
    ¬ Retries db user name createdBy gen now (.error .validation) := by
  intro h
  rw [Retries] at h
  split at h
  · cases h
  · cases h

/-- **`create_key` does what its docstring says exactly if it has nothing to retry**: the
prefix of the first raw key is free. -/
theorem retries_iff_first_free (hclean : clean (newRow db user name createdBy now (gen 0)) = true) :
    Retries db user name createdBy gen now (createKey clean db user name createdBy gen now) ↔
      prefixTaken db.keys ((gen 0).take 8) = false := by
  refine ⟨?_, ?_⟩
  · intro h
    cases htaken : prefixTaken db.keys ((gen 0).take 8) with
    | false => rfl
    | true =>
      rw [createKey_of_taken htaken] at h
      exact absurd h not_retries_validation
  · intro hfree
    have hfirst : firstFree db.keys [gen 0, gen 1, gen 2] = some (gen 0) := by
      simp [firstFree, hfree]
    rw [createKey_of_free hclean hfree, Retries, hfirst]

/-- A store with one revoked key, under the prefix `aaaaaaaa`. -/
def oneTaken : Db where
  keys := [⟨0, 1, "ci".toList, "aaaaaaaa".toList, "aaaaaaaa-old".toList, none, some 5, true, none,
    none, 0, 5⟩]
  users _ := true
  nextPk := 1
  debounce _ := false

/-- A generator that collides once. -/
def collidesOnce : ℕ → Str
  | 0 => "aaaaaaaa-new".toList
  | _ => "bbbbbbbb-new".toList

/-- The collision is not retried. -/
theorem collision_not_retried :
    ¬ ∀ (clean : Row → Bool) (db : Db) (user : ℕ) (name : Str) (createdBy : Option ℕ)
        (gen : ℕ → Str) (now : ℕ), (∀ raw, clean (newRow db user name createdBy now raw) = true) →
      Retries db user name createdBy gen now
        (createKey clean db user name createdBy gen now) := by
  intro halways
  have hretries := halways (fun _ => true) oneTaken 1 "ci".toList none collidesOnce 9 (fun _ => rfl)
  rw [createKey_of_taken (by decide)] at hretries
  exact not_retries_validation hretries

/-- A key whose prefix is free is inserted at once. -/
theorem free_prefix_created :
    createKey (fun _ => true) oneTaken 1 "ci".toList none (fun n => collidesOnce (n + 1)) 9 =
        .ok ({ oneTaken with
          keys := oneTaken.keys ++ [newRow oneTaken 1 "ci".toList none 9 "bbbbbbbb-new".toList],
          nextPk := 2 }, newRow oneTaken 1 "ci".toList none 9 "bbbbbbbb-new".toList,
            "bbbbbbbb-new".toList) ∧
      Retries oneTaken 1 "ci".toList none (fun n => collidesOnce (n + 1)) 9
        (createKey (fun _ => true) oneTaken 1 "ci".toList none (fun n => collidesOnce (n + 1)) 9) :=
  ⟨createKey_of_free rfl (by decide), (retries_iff_first_free rfl).mpr (by decide)⟩

end ApiKey

end DjangoBoilerplate
