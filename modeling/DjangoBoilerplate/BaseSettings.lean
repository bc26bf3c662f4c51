import DjangoBoilerplate.SettingsModules

/-!
# When `base.py` loads

`base.py` is a regular script but for the check of `SECRET_KEY` at its beginning and the pattern it
compiles. So it loads exactly if there is a key, every integer and every boolean that is set can be
read, and the pattern is one (`exists_run_base_iff`).
-/

namespace DjangoBoilerplate

namespace Startup

open Settings Scripts

variable (P : Python)

/-- Is the variable set, to something? -/
def IsSet (e : Environ) (var : String) : Prop := (e var.toList).getD [] ≠ []

instance (e : Environ) (var : String) : Decidable (IsSet e var) :=
  inferInstanceAs (Decidable (_ ≠ _))

/-- The variables that `base.py` reads as integers, with their defaults. -/
def baseInts : List (String × ℕ) :=
  [("DB_CONN_MAX_AGE", 600), ("NUM_PROXIES", 0), ("CELERY_TASK_TIME_LIMIT", 1800),
    ("CELERY_TASK_SOFT_TIME_LIMIT", 1500), ("CELERY_WORKER_PREFETCH_MULTIPLIER", 1),
    ("CELERY_WORKER_CONCURRENCY", 4), ("LOG_MAX_STRING_LENGTH", 200), ("LOG_MAX_DICT_KEYS", 20),
    ("LOG_MAX_LIST_ITEMS", 10), ("RESILIENCE_CB_FAIL_MAX", 5), ("RESILIENCE_CB_RESET_TIMEOUT", 30),
    ("RESILIENCE_RETRY_MAX_ATTEMPTS", 3), ("RESILIENCE_RETRY_WAIT_MIN", 1),
    ("RESILIENCE_RETRY_WAIT_MAX", 10), ("ASSET_MAX_BYTES", 26214400),
    ("MAX_REQUEST_BODY_BYTES", 2097152), ("API_LOG_QUEUE_MAX_IN_FLIGHT", 1000),
    ("API_LOG_QUEUE_WORKERS", 4), ("API_LOG_MAX_BODY_LEN", 4096), ("API_LOG_TTL_DAYS", 0)]

/-- Those it reads as booleans. -/
def baseBools : List String := ["CELERY_SEND_EVENTS", "SECURITY_HEADERS_ENABLED"]

/-- The words `_env_bool` takes. -/
def boolWords : List Str :=
  ["true", "1", "yes", "on", "false", "0", "no", "off", ""].map String.toList

/-- What `base.py` wants of the variables. -/
structure BaseAccepts (e : Environ) : Prop where
  /-- there is a `SECRET_KEY` -/
  secretKey : IsSet e "SECRET_KEY"
  /-- what is set of the numbers is one -/
  ints : ∀ c ∈ baseInts, ∀ v, e c.1.toList = some v → ∃ n, P.ints.ofStr v = some n
  /-- what is set of the booleans is one -/
  bools : ∀ var ∈ baseBools, ∀ v, e var.toList = some v → P.casing.lower v.strip ∈ boolWords
  /-- the pattern is one -/
  pattern : P.compiles (combinedPattern ((e "LOG_MASK_PATTERN".toList).getD [])) = true

/-- The two functions of `base.py`. -/
def helpers : List (Str × Function SettingsError) :=
  [("_env_int".toList, envInt P), ("_env_bool".toList, envBool P)]

variable {P}

/-- The value of `os.getenv(var)`. -/
def valueOf (e : Environ) (var : String) : Value := ((e var.toList).map Value.str).getD .none

theorem truthy_valueOf {e : Environ} {var : String} :
    (valueOf e var).truthy = true ↔ IsSet e var := by
  unfold valueOf IsSet
  cases e var.toList with
  | none => simp [Value.truthy]
  | some s => simp [Value.truthy]

/-- The globals after the preamble. -/
def preambleGlobals (P : Python) (e : Environ) : Globals SettingsError :=
  setItem (setItem (setItem [] "_env_int".toList (.function (envInt P))) "_env_bool".toList
    (.function (envBool P))) "SECRET_KEY".toList (.value (valueOf e "SECRET_KEY"))

/-- The preamble loads if there is a key. -/
theorem run_preamble {e : Environ} {g : Globals SettingsError} :
    run e [] (preamble P) = .ok g ↔ IsSet e "SECRET_KEY" ∧ preambleGlobals P e = g := by
  have hkey : (global "SECRET_KEY").eval e (preambleGlobals P e) = .ok (valueOf e "SECRET_KEY") := by
    rw [global, Expr.eval, preambleGlobals, getItem_setItem, if_pos rfl]
  have hrun : run e [] (preamble P) =
      (Stmt.raiseIf (global "SECRET_KEY").negate (.improperlyConfigured
        ("The SECRET_KEY environment variable is not set. ".toList ++
          "Set it in your .env file or environment.".toList))).exec e (preambleGlobals P e) >>=
        fun g => run e g [] := rfl
  rw [hrun, exec_raiseIf_negate hkey, ← truthy_valueOf]
  cases (valueOf e "SECRET_KEY").truthy with
  | false => simp [bind, Except.bind]
  | true => simp [bind, Except.bind, run]

theorem scope_preamble {e : Environ} (hset : IsSet e "SECRET_KEY") :
    Scope (helpers P) ["SECRET_KEY".toList] (preambleGlobals P e) := by
  refine ⟨?_, ?_⟩
  · intro n f hf
    have hn : n ∈ ["_env_int".toList, "_env_bool".toList] :=
      getItem_isSome_iff (d := helpers P).mp (hf ▸ rfl)
    rw [preambleGlobals, getItem_setItem, getItem_setItem, getItem_setItem]
    rcases List.mem_pair.mp hn with rfl | rfl
    · obtain rfl := Option.some.inj ((getItem_cons_self ..).symm.trans hf)
      rw [if_neg (by decide), if_neg (by decide), if_pos rfl]
    · rw [helpers, getItem_cons_of_ne (by decide)] at hf
      obtain rfl := Option.some.inj ((getItem_cons_self ..).symm.trans hf)
      rw [if_neg (by decide), if_pos rfl]
  · intro n hn
    obtain rfl := List.mem_singleton.mp hn
    rw [preambleGlobals, getItem_setItem, if_pos rfl]
    unfold IsSet at hset
    unfold valueOf
    cases hkey : e "SECRET_KEY".toList with
    | none => exact absurd (by rw [hkey]; rfl) hset
    | some key => exact ⟨key, rfl⟩

/-- The calls of `_env_int` and `_env_bool` in `base.py`. -/
theorem mem_base_calls {c : Str × Str × Str} :
    c ∈ (application ++ services).flatMap Stmt.calls ↔
      c ∈ baseInts.map (fun i => ("_env_int".toList, i.1.toList, decimal i.2)) ++
        baseBools.map fun var => ("_env_bool".toList, var.toList, "true".toList) := by
  have hsubset : ((application ++ services).flatMap Stmt.calls ⊆
        baseInts.map (fun i => ("_env_int".toList, i.1.toList, decimal i.2)) ++
          baseBools.map fun var => ("_env_bool".toList, var.toList, "true".toList)) ∧
      (baseInts.map (fun i => ("_env_int".toList, i.1.toList, decimal i.2)) ++
          baseBools.map fun var => ("_env_bool".toList, var.toList, "true".toList)) ⊆
        (application ++ services).flatMap Stmt.calls := by
    constructor
    · decide +kernel
    · decide +kernel
  exact ⟨fun h => hsubset.1 h, fun h => hsubset.2 h⟩

/-- `_env_int` returns unless the variable is set to something else. -/
theorem returns_envInt {e : Environ} {var : String} {n : ℕ} :
    Returns e (helpers P) ("_env_int".toList, var.toList, decimal n) ↔
      ∀ v, e var.toList = some v → ∃ k, P.ints.ofStr v = some k := by
  have hdefault : P.ints.ofStr (decimal n) = some (n : ℤ) := P.ints.ofStr_intStr n
  have hget : getItem (helpers P) "_env_int".toList = some (envInt P) := getItem_cons_self ..
  have hreturns : Returns e (helpers P) ("_env_int".toList, var.toList, decimal n) ↔
      ∃ k, P.ints.ofStr ((e var.toList).getD (decimal n)) = some k := by
    rw [returns_iff hget]
    unfold envInt
    simp only
    cases P.ints.ofStr ((e var.toList).getD (decimal n)) with
    | none => simp
    | some k => simp
  rw [hreturns]
  cases e var.toList with
  | none => simp [hdefault]
  | some v => simp

/-- And `_env_bool`. -/
theorem returns_envBool {e : Environ} {var : String} :
    Returns e (helpers P) ("_env_bool".toList, var.toList, "true".toList) ↔
      ∀ v, e var.toList = some v → P.casing.lower v.strip ∈ boolWords := by
  have hget : getItem (helpers P) "_env_bool".toList = some (envBool P) := by
    rw [helpers, getItem_cons_of_ne (by decide)]
    exact getItem_cons_self ..
  have hdefault : P.casing.lower (Str.strip "true".toList) ∈ boolWords := by
    rw [P.casing.lower_of_isAscii _ (by decide)]
    decide
  have hwords : ∀ s, s ∈ boolWords ↔ s ∈ ["true", "1", "yes", "on"].map String.toList ∨
      s ∈ ["false", "0", "no", "off", ""].map String.toList := by
    intro s
    rw [← List.mem_append]
    rfl
  have hreturns : Returns e (helpers P) ("_env_bool".toList, var.toList, "true".toList) ↔
      P.casing.lower ((e var.toList).getD "true".toList).strip ∈ boolWords := by
    rw [hwords, returns_iff hget]
    unfold envBool
    simp only
    split
    · next htrue => exact iff_of_true ⟨_, rfl⟩ (.inl htrue)
    · next htrue =>
      split
      · next hfalse => exact iff_of_true ⟨_, rfl⟩ (.inr hfalse)
      · next hfalse =>
        refine iff_of_false ?_ (not_or_intro htrue hfalse)
        rintro ⟨v, hv⟩
        cases hv
  rw [hreturns]
  cases e var.toList with
  | none => exact iff_of_true hdefault (fun _ h => by cases h)
  | some v => simp

/-- The calls of `base.py` return if what is set can be read. -/
theorem base_calls_return {e : Environ} :
    (∀ c ∈ (application ++ services).flatMap Stmt.calls, Returns e (helpers P) c) ↔
      (∀ c ∈ baseInts, ∀ v, e c.1.toList = some v → ∃ n, P.ints.ofStr v = some n) ∧
        ∀ var ∈ baseBools, ∀ v, e var.toList = some v → P.casing.lower v.strip ∈ boolWords := by
  simp only [mem_base_calls]
  rw [List.forall_mem_append, List.forall_mem_map, List.forall_mem_map]
  simp only [returns_envInt, returns_envBool]

/-- The user's pattern, after `application`. -/
theorem getItem_userMaskPattern {e : Environ} {g m : Globals SettingsError}
    (h : run e g application = .ok m) :
    getItem m "_user_mask_pattern".toList =
      some (.value (.str ((e "LOG_MASK_PATTERN".toList).getD []))) := by
  obtain ⟨k, v, -, hv, hget⟩ := getItem_run_of_assign application.dropLast []
    "_user_mask_pattern".toList (getenvOr "LOG_MASK_PATTERN" "") h (by decide)
  rw [hget]
  obtain rfl := Except.ok.inj hv
  cases e "LOG_MASK_PATTERN".toList with
  | none => rfl
  | some user => rfl

/-- The pattern is compiled if it is one. -/
theorem exec_sensitivePattern {e : Environ} {m : Globals SettingsError} {user : Str}
    (huser : getItem m "_user_mask_pattern".toList = some (.value (.str user))) :
    (sensitivePattern P).exec e m =
      if P.compiles (combinedPattern user) then
        .ok (setItem m "_sensitive_pattern".toList (.value (.other "Pattern".toList none)))
      else .error (.raised .reError) := by
  have heval : (global "_user_mask_pattern").eval e m = .ok (.str user) := by
    rw [global, Expr.eval, huser]
  rw [sensitivePattern, assign, Stmt.exec, Expr.eval, heval]
  cases hcompiles : P.compiles (combinedPattern user) with
  | false => simp [bind, Except.bind, compilePattern, hcompiles, Except.mapError]
  | true => simp [bind, Except.bind, compilePattern, hcompiles, Except.mapError, pure, Except.pure]

/-- The names the rest of `base.py` needs. -/
theorem regular_application :
    regular (keysOf (helpers P)) ["SECRET_KEY".toList] application = true := by
  change regular ["_env_int".toList, "_env_bool".toList] _ _ = true
  decide

theorem regular_services :
    regular (keysOf (helpers P)) ["SECRET_KEY".toList] services = true := by
  change regular ["_env_int".toList, "_env_bool".toList] _ _ = true
  decide

/-- The scope when the last part begins. -/
theorem scope_services {e : Environ} {g m : Globals SettingsError}
    (hscope : Scope (helpers P) ["SECRET_KEY".toList] g) (h : run e g application = .ok m)
    (v : Value) : Scope (helpers P) ["SECRET_KEY".toList]
      (setItem m "_sensitive_pattern".toList (.value v)) := by
  have hafter : Scope (helpers P) ["SECRET_KEY".toList] m :=
    (hscope.run regular_application h).mono (by decide)
  refine hafter.setOther ?_ (by decide) _
  change _ ∉ ["_env_int".toList, "_env_bool".toList]
  decide

/-- `base.py` loads exactly if the variables are as it wants them. -/
theorem exists_run_base_iff {e : Environ} :
    (∃ g, run e [] (base P) = .ok g) ↔ BaseAccepts P e := by
  constructor
  · rintro ⟨g, h⟩
    obtain ⟨p, hp, h⟩ := run_append_eq_ok.mp h
    obtain ⟨m, hm, h⟩ := run_append_eq_ok.mp h
    obtain ⟨k, hk, hg⟩ := run_cons_eq_ok.mp h
    obtain ⟨hset, rfl⟩ := run_preamble.mp hp
    have hscope := scope_preamble (P := P) hset
    have happlication := (exists_run_iff_calls e hscope regular_application).mp ⟨m, hm⟩
    rw [exec_sensitivePattern (getItem_userMaskPattern hm)] at hk
    split at hk
    · next hcompiles =>
      obtain rfl := Except.ok.inj hk
      have hservices :=
        (exists_run_iff_calls e (scope_services hscope hm _) regular_services).mp ⟨g, hg⟩
      obtain ⟨hints, hbools⟩ := base_calls_return.mp (by
        rw [List.flatMap_append, List.forall_mem_append]
        exact ⟨happlication, hservices⟩)
      exact ⟨hset, hints, hbools, hcompiles⟩
    · cases hk
  · rintro ⟨hset, hints, hbools, hpattern⟩
    have hcalls := base_calls_return.mpr ⟨hints, hbools⟩
    rw [List.flatMap_append, List.forall_mem_append] at hcalls
    have hscope := scope_preamble (P := P) hset
    obtain ⟨m, hm⟩ := (exists_run_iff_calls e hscope regular_application).mpr hcalls.1
    obtain ⟨g, hg⟩ :=
      (exists_run_iff_calls e (scope_services hscope hm _) regular_services).mpr hcalls.2
    have hk := exec_sensitivePattern (P := P) (e := e) (getItem_userMaskPattern hm)
    rw [if_pos hpattern] at hk
    exact ⟨g, run_append_eq_ok.mpr ⟨_, run_preamble.mpr ⟨hset, rfl⟩,
      run_append_eq_ok.mpr ⟨m, hm, run_cons_eq_ok.mpr ⟨_, hk, hg⟩⟩⟩⟩

end Startup

end DjangoBoilerplate
