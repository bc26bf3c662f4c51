import DjangoBoilerplate.BaseSettings

/-!
# Starting up

When the settings of each environment load, and what they are. `prod.py` calls `_env_int`, which
`from .base import *` does not bring in; `uat.py` has a line of its own for that name. So no
environment whatsoever lets the service start in production (`startup_iff`,
`production_startup`).
-/

namespace DjangoBoilerplate

namespace Startup

open Settings Scripts

variable {P : Python}

/-! ## When the module of an environment loads -/

/-- `CORS_ALLOWED_ORIGINS`, or its default. -/
def corsOrigins (e : Environ) : Str :=
  (e "CORS_ALLOWED_ORIGINS".toList).getD "http://localhost:3000,http://127.0.0.1:3000".toList

/-- Are all origins allowed? -/
def Wildcard (e : Environ) : Prop := (corsOrigins e).strip = ['*']

instance (e : Environ) : Decidable (Wildcard e) := inferInstanceAs (Decidable (_ = _))

/-- The hosts. -/
def hostsOf (e : Environ) : List Str := parts ((e "ALLOWED_HOSTS".toList).getD [])

/-- What `dev.py` and `uat.py` both want. -/
structure Deployable (e : Environ) : Prop where
  postgresDb : IsSet e "POSTGRES_DB"
  postgresHost : IsSet e "POSTGRES_HOST"
  hosts : hostsOf e ≠ []
  signingKey : IsSet e "JWT_SIGNING_KEY"
  encryptionKey : IsSet e "FIELD_ENCRYPTION_KEY"

/-- What `uat.py` wants beside. -/
structure UatReady (e : Environ) : Prop where
  valkey : IsSet e "VALKEY_CACHE_URL"
  broker : IsSet e "CELERY_BROKER_URL"
  results : IsSet e "CELERY_RESULT_BACKEND"
  origins : ¬ Wildcard e

variable (P) in
/-- The variables with which an environment starts. -/
def Accepts : EnvName → Environ → Prop
  | .local, e => BaseAccepts P e
  | .test, e => BaseAccepts P e
  | .dev, e => BaseAccepts P e ∧ Deployable e
  | .uat, e => BaseAccepts P e ∧ Deployable e ∧ UatReady e
  | .prod, _ => False

/-- A public name comes in with `*`, another one only if it is asked for. -/
theorem getItem_imports (m : Module) (g : Globals SettingsError) (n : Str) :
    getItem (m.imports g) n =
      if ['_'].isPrefixOf n = false ∨ n ∈ m.names then getItem g n else none := by
  have hstar : getItem (importStar g) n =
      if (!(['_'].isPrefixOf n)) = true then getItem g n else none :=
    getItem_filter g (fun n => !(['_'].isPrefixOf n)) n
  have hnames : getItem (g.filter fun b => b.1 ∈ m.names) n =
      if decide (n ∈ m.names) = true then getItem g n else none :=
    getItem_filter g (fun n => decide (n ∈ m.names)) n
  have happend : getItem (m.imports g) n =
      (getItem (importStar g) n).or (getItem (g.filter fun b => b.1 ∈ m.names) n) :=
    List.lookup_append
  rw [happend, hstar, hnames]
  cases ['_'].isPrefixOf n with
  | false =>
    cases getItem g n with
    | none => simp
    | some v => simp
  | true => simp

/-- An assignment whose value is known. -/
theorem run_assign {e : Environ} {g : Globals SettingsError} {n : String} {x : Expr SettingsError}
    {v : Value} (hv : x.eval e g = .ok v) (rest : List (Stmt SettingsError)) :
    run e g (assign n x :: rest) = run e (setItem g n.toList (.value v)) rest := by
  rw [run, assign, Stmt.exec, hv]
  rfl

/-- A check. -/
theorem run_required {e : Environ} {g g' : Globals SettingsError} {x : Expr SettingsError}
    {v : Value} (hv : x.eval e g = .ok v) (message : String) (rest : List (Stmt SettingsError)) :
    run e g (required x message :: rest) = .ok g' ↔
      v.truthy = true ∧ run e g rest = .ok g' := by
  rw [run_cons_eq_ok, required, exec_raiseIf_negate hv]
  cases v.truthy with
  | false => simp
  | true => simp

theorem eval_getenv (e : Environ) (g : Globals SettingsError) (var : String) :
    (getenv var).eval e g = .ok (valueOf e var) := rfl

theorem eval_global {e : Environ} {g : Globals SettingsError} {n : String} {v : Value}
    (h : getItem g n.toList = some (.value v)) : (global n).eval e g = .ok v := by
  rw [global, Expr.eval, h]

theorem eval_hosts (e : Environ) (g : Globals SettingsError) :
    (partsOf (getenvOr "ALLOWED_HOSTS" "")).eval e g =
      .ok (.seq ((hostsOf e).map Value.str)) := by
  unfold hostsOf
  cases hhosts : e "ALLOWED_HOSTS".toList with
  | none =>
    rw [partsOf, Expr.eval, getenvOr, Expr.eval, hhosts]
    rfl
  | some hosts =>
    rw [partsOf, Expr.eval, getenvOr, Expr.eval, hhosts]
    rfl

theorem truthy_hosts {e : Environ} :
    (Value.seq ((hostsOf e).map Value.str)).truthy = true ↔ hostsOf e ≠ [] := by
  simp [Value.truthy]

/-- The check of the database. -/
theorem run_requiredDatabase {e : Environ} {g g' : Globals SettingsError} (message : String)
    (rest : List (Stmt SettingsError)) :
    run e g (requiredDatabase message :: rest) = .ok g' ↔
      IsSet e "POSTGRES_DB" ∧ IsSet e "POSTGRES_HOST" ∧ run e g rest = .ok g' := by
  have hnot : ∀ var, ((getenv var).negate).eval e g = .ok (.bool !(valueOf e var).truthy) :=
    fun _ => rfl
  rw [run_cons_eq_ok, requiredDatabase, Stmt.exec, Expr.eval, hnot, hnot, ← truthy_valueOf,
    ← truthy_valueOf]
  cases (valueOf e "POSTGRES_DB").truthy with
  | false => simp [bind, Except.bind, Value.truthy, pure, Except.pure]
  | true =>
    cases (valueOf e "POSTGRES_HOST").truthy with
    | false => simp [bind, Except.bind, Value.truthy]
    | true => simp [bind, Except.bind, Value.truthy, pure, Except.pure]

/-- `CORS_ALLOW_ALL_ORIGINS` after `base.py`: there, and true, only with the wildcard. -/
theorem getItem_corsAllowAll {e : Environ} {g : Globals SettingsError}
    (h : run e [] (base P) = .ok g) :
    getItem g "CORS_ALLOW_ALL_ORIGINS".toList =
      if Wildcard e then some (.value (.bool true)) else none := by
  obtain ⟨m, hm, h⟩ := run_append_eq_ok.mp
    (show run e [] ((preamble P ++ application.take 5) ++
      (application.drop 5 ++ (sensitivePattern P :: services))) = .ok g from h)
  obtain ⟨k, hk, h⟩ := run_cons_eq_ok.mp h
  have hbefore : getItem m "CORS_ALLOW_ALL_ORIGINS".toList = none := by
    rw [getItem_run_of_not_mem _ hm]
    · rfl
    · change _ ∉ ["_env_int".toList, "_env_bool".toList, "SECRET_KEY".toList] ++
        bound (application.take 5)
      decide
  have horigins : getItem m "_cors_origins".toList = some (.value (.str (corsOrigins e))) := by
    obtain ⟨_, v, -, hv, hget⟩ := getItem_run_of_assign (preamble P ++ application.take 4) []
      "_cors_origins".toList
      (getenvOr "CORS_ALLOWED_ORIGINS" "http://localhost:3000,http://127.0.0.1:3000") hm (by decide)
    rw [hget]
    obtain rfl := Except.ok.inj hv
    unfold corsOrigins
    cases e "CORS_ALLOWED_ORIGINS".toList with
    | none => rfl
    | some origins => rfl
  have hafter : "CORS_ALLOW_ALL_ORIGINS".toList ∉
      bound (application.drop 6 ++ (sensitivePattern P :: services)) := by
    change _ ∉ bound (application.drop 6) ++ "_sensitive_pattern".toList :: bound services
    decide
  rw [getItem_run_of_not_mem hafter h]
  rw [Stmt.exec, Expr.eval, eval_global horigins] at hk
  split
  · next hwildcard =>
    change (if (Value.bool (decide (Wildcard e))).truthy then _ else _) = _ at hk
    rw [decide_eq_true hwildcard] at hk
    obtain rfl := Except.ok.inj hk
    rw [getItem_setItem, if_neg (by decide), getItem_setItem, if_pos rfl]
  · next hwildcard =>
    change (if (Value.bool (decide (Wildcard e))).truthy then _ else _) = _ at hk
    rw [decide_eq_false hwildcard] at hk
    exact (getItem_assignAll_of_not_mem (by decide) hk).trans hbefore

/-- `dev.py`, after its imports. -/
theorem exists_run_dev_iff {e : Environ} {g : Globals SettingsError} :
    (∃ g', run e g devModule.body = .ok g') ↔ Deployable e := by
  obtain ⟨b, hb⟩ : ∃ b, (equals "True" (getenvOr "DEBUG" "False")).eval e g = .ok (.bool b) := by
    rw [equals, Expr.eval, getenvOr, Expr.eval]
    cases e "DEBUG".toList with
    | none => exact ⟨_, rfl⟩
    | some s => exact ⟨_, rfl⟩
  rw [devModule, run_assign hb, allowedHosts, run_assign (eval_hosts ..)]
  generalize setItem g "DEBUG".toList (.value (.bool b)) = m
  have hhosts : getItem (setItem m "ALLOWED_HOSTS".toList
      (.value (.seq ((hostsOf e).map Value.str)))) "ALLOWED_HOSTS".toList =
        some (.value (.seq ((hostsOf e).map Value.str))) := by
    rw [getItem_setItem, if_pos rfl]
  generalize setItem m "ALLOWED_HOSTS".toList (.value (.seq ((hostsOf e).map Value.str))) = k
    at hhosts
  constructor
  · rintro ⟨g', hrun⟩
    obtain ⟨hdb, hhost, hrun⟩ := (run_requiredDatabase ..).mp hrun
    obtain ⟨hnames, hrun⟩ := (run_required (eval_global hhosts) ..).mp hrun
    obtain ⟨hsigning, hrun⟩ := (run_required (eval_getenv ..) ..).mp hrun
    obtain ⟨hencryption, -⟩ := (run_required (eval_getenv ..) ..).mp hrun
    exact ⟨hdb, hhost, truthy_hosts.mp hnames, truthy_valueOf.mp hsigning,
      truthy_valueOf.mp hencryption⟩
  · rintro ⟨hdb, hhost, hnames, hsigning, hencryption⟩
    refine ⟨k, (run_requiredDatabase ..).mpr ⟨hdb, hhost, ?_⟩⟩
    refine (run_required (eval_global hhosts) ..).mpr ⟨truthy_hosts.mpr hnames, ?_⟩
    refine (run_required (eval_getenv ..) ..).mpr ⟨truthy_valueOf.mpr hsigning, ?_⟩
    exact (run_required (eval_getenv ..) ..).mpr ⟨truthy_valueOf.mpr hencryption, rfl⟩

/-- `_env_int` where it is bound, after `base.py` has loaded. -/
theorem eval_workerConcurrency {e : Environ} {g : Globals SettingsError} (hbase : BaseAccepts P e)
    (hint : getItem g "_env_int".toList = some (.function (envInt P))) :
    ∃ n, (callEnvInt "CELERY_WORKER_CONCURRENCY" "2").eval e g = .ok (.int n) := by
  have hdefault : P.ints.ofStr "2".toList = some 2 := P.ints.ofStr_intStr 2
  obtain ⟨n, hn⟩ : ∃ n, P.ints.ofStr ((e "CELERY_WORKER_CONCURRENCY".toList).getD "2".toList) =
      some n := by
    cases hvar : e "CELERY_WORKER_CONCURRENCY".toList with
    | none => exact ⟨2, hdefault⟩
    | some v => exact hbase.ints ("CELERY_WORKER_CONCURRENCY", 4) (by decide) v hvar
  refine ⟨n, ?_⟩
  rw [callEnvInt, Expr.eval, hint]
  simp only [envInt, hn]
  rfl

/-- The check of the origins. -/
theorem run_noWildcard {e : Environ} {g g' : Globals SettingsError}
    (hcors : getItem g "CORS_ALLOW_ALL_ORIGINS".toList =
      if Wildcard e then some (.value (.bool true)) else none) (message : String) :
    run e g [noWildcard message] = .ok g' ↔ ¬ Wildcard e ∧ g = g' := by
  rw [run_cons_eq_ok, noWildcard, Stmt.exec, Expr.eval, hcors]
  by_cases hwildcard : Wildcard e
  · rw [if_pos hwildcard]
    simp [bind, Except.bind, Value.truthy, hwildcard]
  · rw [if_neg hwildcard]
    simp [bind, Except.bind, Value.truthy, hwildcard, pure, Except.pure, run]

/-- The globals of `uat.py` when its checks begin. -/
def uatGlobals (e : Environ) (g : Globals SettingsError) (concurrency : ℤ) :
    Globals SettingsError :=
  let g := setItem g "DEBUG".toList (.value (.bool false))
  let g := setItem g "ALLOWED_HOSTS".toList (.value (.seq ((hostsOf e).map Value.str)))
  let g := setItem g "_valkey_url".toList (.value (valueOf e "VALKEY_CACHE_URL"))
  let g := setItem g "CELERY_BROKER_URL".toList (.value (valueOf e "CELERY_BROKER_URL"))
  let g := setItem g "CELERY_RESULT_BACKEND".toList (.value (valueOf e "CELERY_RESULT_BACKEND"))
  setItem g "CELERY_WORKER_CONCURRENCY".toList (.value (.int concurrency))

theorem getItem_uatGlobals (e : Environ) (g : Globals SettingsError) (n : ℤ) :
    getItem (uatGlobals e g n) "CELERY_BROKER_URL".toList =
        some (.value (valueOf e "CELERY_BROKER_URL")) ∧
      getItem (uatGlobals e g n) "CELERY_RESULT_BACKEND".toList =
        some (.value (valueOf e "CELERY_RESULT_BACKEND")) ∧
      getItem (uatGlobals e g n) "ALLOWED_HOSTS".toList =
        some (.value (.seq ((hostsOf e).map Value.str))) ∧
      getItem (uatGlobals e g n) "CORS_ALLOW_ALL_ORIGINS".toList =
        getItem g "CORS_ALLOW_ALL_ORIGINS".toList := by
  simp +decide only [uatGlobals, getItem_setItem, if_true, if_false, and_self]

/-- The beginning of `uat.py`. -/
theorem run_uat {e : Environ} {g : Globals SettingsError} (hbase : BaseAccepts P e)
    (hint : getItem g "_env_int".toList = some (.function (envInt P))) :
    ∃ n, ∀ g', run e g uatModule.body = .ok g' ↔
      IsSet e "VALKEY_CACHE_URL" ∧ run e (uatGlobals e g n) (uatModule.body.drop 7) = .ok g' := by
  have hvalkey : getItem (setItem (setItem (setItem g "DEBUG".toList (.value (.bool false)))
      "ALLOWED_HOSTS".toList (.value (.seq ((hostsOf e).map Value.str)))) "_valkey_url".toList
        (.value (valueOf e "VALKEY_CACHE_URL"))) "_valkey_url".toList =
          some (.value (valueOf e "VALKEY_CACHE_URL")) := by
    rw [getItem_setItem, if_pos rfl]
  have hint' : getItem (setItem (setItem (setItem (setItem (setItem g "DEBUG".toList
      (.value (.bool false))) "ALLOWED_HOSTS".toList (.value (.seq ((hostsOf e).map Value.str))))
      "_valkey_url".toList (.value (valueOf e "VALKEY_CACHE_URL"))) "CELERY_BROKER_URL".toList
      (.value (valueOf e "CELERY_BROKER_URL"))) "CELERY_RESULT_BACKEND".toList
      (.value (valueOf e "CELERY_RESULT_BACKEND"))) "_env_int".toList =
        some (.function (envInt P)) := by
    simp +decide only [getItem_setItem, if_false, hint]
  obtain ⟨n, hn⟩ := eval_workerConcurrency hbase hint'
  refine ⟨n, fun g' => ?_⟩
  rw [uatModule, run_assign rfl, allowedHosts, run_assign (eval_hosts ..),
    run_assign (eval_getenv ..), run_required (eval_global hvalkey), run_assign (eval_getenv ..),
    run_assign (eval_getenv ..), run_assign hn, truthy_valueOf]
  rfl

/-- `uat.py`, after its imports. -/
theorem exists_run_uat_iff {e : Environ} {g : Globals SettingsError} (hbase : BaseAccepts P e)
    (hint : getItem g "_env_int".toList = some (.function (envInt P)))
    (hcors : getItem g "CORS_ALLOW_ALL_ORIGINS".toList =
      if Wildcard e then some (.value (.bool true)) else none) :
    (∃ g', run e g uatModule.body = .ok g') ↔ Deployable e ∧ UatReady e := by
  obtain ⟨n, hrun⟩ := run_uat hbase hint
  obtain ⟨hbroker, hresults, hhosts, hsame⟩ := getItem_uatGlobals e g n
  simp only [hrun]
  generalize uatGlobals e g n = k at hbroker hresults hhosts hsame
  rw [← hsame] at hcors
  constructor
  · rintro ⟨g', hvalkey, hrun⟩
    obtain ⟨hset, hrun⟩ := (run_required (eval_global hbroker) ..).mp hrun
    obtain ⟨hset', hrun⟩ := (run_required (eval_global hresults) ..).mp hrun
    obtain ⟨hnames, hrun⟩ := (run_required (eval_global hhosts) ..).mp hrun
    obtain ⟨hdb, hhost, hrun⟩ := (run_requiredDatabase ..).mp hrun
    obtain ⟨hsigning, hrun⟩ := (run_required (eval_getenv ..) ..).mp hrun
    obtain ⟨hencryption, hrun⟩ := (run_required (eval_getenv ..) ..).mp hrun
    obtain ⟨horigins, -⟩ := (run_noWildcard hcors _).mp hrun
    exact ⟨⟨hdb, hhost, truthy_hosts.mp hnames, truthy_valueOf.mp hsigning,
      truthy_valueOf.mp hencryption⟩,
      ⟨hvalkey, truthy_valueOf.mp hset, truthy_valueOf.mp hset', horigins⟩⟩
  · rintro ⟨hdeployable, hready⟩
    refine ⟨k, hready.valkey, ?_⟩
    refine (run_required (eval_global hbroker) ..).mpr ⟨truthy_valueOf.mpr hready.broker, ?_⟩
    refine (run_required (eval_global hresults) ..).mpr ⟨truthy_valueOf.mpr hready.results, ?_⟩
    refine (run_required (eval_global hhosts) ..).mpr ⟨truthy_hosts.mpr hdeployable.hosts, ?_⟩
    refine (run_requiredDatabase ..).mpr ⟨hdeployable.postgresDb, hdeployable.postgresHost, ?_⟩
    refine (run_required (eval_getenv ..) ..).mpr
      ⟨truthy_valueOf.mpr hdeployable.signingKey, ?_⟩
    refine (run_required (eval_getenv ..) ..).mpr
      ⟨truthy_valueOf.mpr hdeployable.encryptionKey, ?_⟩
    exact (run_noWildcard hcors _).mpr ⟨hready.origins, rfl⟩

/-- A call of `_env_int` where it is not bound. -/
theorem run_callEnvInt_of_none {e : Environ} {g : Globals SettingsError}
    (hint : getItem g "_env_int".toList = none) (n var default : String)
    (rest : List (Stmt SettingsError)) :
    run e g (assign n (callEnvInt var default) :: rest) =
      .error (.nameError "_env_int".toList) := by
  rw [run, assign, Stmt.exec, callEnvInt, Expr.eval, hint]
  rfl

/-- `prod.py`, where `_env_int` is not bound: it stops at `VALKEY_CACHE_URL` or at the call. -/
theorem run_prod {e : Environ} {g : Globals SettingsError}
    (hint : getItem g "_env_int".toList = none) :
    (IsSet e "VALKEY_CACHE_URL" →
      run e g prodModule.body = .error (.nameError "_env_int".toList)) ∧
    (¬ IsSet e "VALKEY_CACHE_URL" →
      run e g prodModule.body = .error (.raised (.valueError valkeyMissing.toList))) := by
  obtain ⟨k, hbegin, hvalkey, hnone⟩ : ∃ k,
      run e g prodModule.body = run e k (prodModule.body.drop 3) ∧
        getItem k "_valkey_url".toList = some (.value (valueOf e "VALKEY_CACHE_URL")) ∧
        getItem k "_env_int".toList = none := by
    refine ⟨setItem (setItem (setItem g "DEBUG".toList (.value (.bool false)))
      "ALLOWED_HOSTS".toList (.value (.seq ((hostsOf e).map Value.str))))
      "_valkey_url".toList (.value (valueOf e "VALKEY_CACHE_URL")), ?_, ?_, ?_⟩
    · rw [prodModule, run_assign rfl, allowedHosts, run_assign (eval_hosts ..),
        run_assign (eval_getenv ..)]
      rfl
    · rw [getItem_setItem, if_pos rfl]
    · simp +decide only [getItem_setItem, if_false, hint]
  have hcheck : run e k (prodModule.body.drop 3) =
      (Stmt.raiseIf (global "_valkey_url").negate (.valueError valkeyMissing.toList)).exec e k >>=
        fun k => run e k (prodModule.body.drop 4) := rfl
  rw [hbegin, hcheck, exec_raiseIf_negate (eval_global hvalkey)]
  constructor
  · intro hset
    rw [if_pos (truthy_valueOf.mpr hset)]
    change run e k (prodModule.body.drop 4) = _
    simp only [prodModule, List.drop]
    rw [run_assign (eval_getenv ..), run_assign (eval_getenv ..)]
    apply run_callEnvInt_of_none
    simp +decide only [getItem_setItem, if_false, hnone]
  · intro hunset
    rw [if_neg (mt truthy_valueOf.mp hunset)]
    rfl

/-- `local.py` and `test.py` check nothing. -/
theorem exists_run_of_plain {e : Environ} {g : Globals SettingsError}
    {script : List (Stmt SettingsError)} (hregular : regular [] [] script = true)
    (hcalls : script.flatMap Stmt.calls = []) : ∃ g', run e g script = .ok g' := by
  have hscope : Scope [] [] g := ⟨fun h => (by cases h), fun h => absurd h List.not_mem_nil⟩
  refine (exists_run_iff_calls e hscope hregular).mpr ?_
  rw [hcalls]
  exact fun _ hc => absurd hc List.not_mem_nil

/-! ## Startup -/

/-- The globals a module begins with, once `base.py` has loaded: the helper of the integers is there
only in `uat.py`. -/
theorem getItem_envInt_imports {e : Environ} {g : Globals SettingsError}
    (h : run e [] (base P) = .ok g) (env : EnvName) :
    getItem ((moduleOf env).imports g) "_env_int".toList =
      if env = .uat then some (.function (envInt P)) else none := by
  have hbase : getItem g "_env_int".toList = some (.function (envInt P)) := by
    obtain ⟨m, hm, hrest⟩ := run_append_eq_ok.mp h
    obtain ⟨hset, rfl⟩ := run_preamble.mp hm
    have hafter : "_env_int".toList ∉ bound (application ++ (sensitivePattern P :: services)) := by
      change _ ∉ bound application ++ "_sensitive_pattern".toList :: bound services
      decide
    rw [getItem_run_of_not_mem hafter hrest]
    exact (scope_preamble hset).function (getItem_cons_self ..)
  rw [getItem_imports, hbase]
  cases env with
  | uat => rfl
  | _ => rfl

/-- The module of an environment loads exactly if the variables are as it wants them. -/
theorem exists_importModule_iff {env : EnvName} {e : Environ} :
    (∃ g, importModule P env e = .ok g) ↔ Accepts P env (varsIn P env e) := by
  have hload : (∃ g, importModule P env e = .ok g) ↔
      ∃ b, run (varsIn P env e) [] (base P) = .ok b ∧
        ∃ g, run (varsIn P env e) ((moduleOf env).imports b) (moduleOf env).body = .ok g := by
    unfold importModule
    constructor
    · rintro ⟨g, h⟩
      obtain ⟨b, hb, hg⟩ := bind_eq_ok.mp h
      exact ⟨b, hb, g, hg⟩
    · rintro ⟨b, hb, g, hg⟩
      exact ⟨g, bind_eq_ok.mpr ⟨b, hb, hg⟩⟩
  rw [hload]
  generalize varsIn P env e = e
  constructor
  · rintro ⟨b, hb, hmodule⟩
    have hbase := exists_run_base_iff.mp ⟨b, hb⟩
    have hint := getItem_envInt_imports hb env
    cases env with
    | «local» => exact hbase
    | test => exact hbase
    | dev => exact ⟨hbase, exists_run_dev_iff.mp hmodule⟩
    | uat =>
      refine ⟨hbase, (exists_run_uat_iff hbase hint ?_).mp hmodule⟩
      rw [getItem_imports, ← getItem_corsAllowAll hb]
      rfl
    | prod =>
      obtain ⟨g, hg⟩ := hmodule
      obtain ⟨hname, hvalue⟩ := run_prod (e := e) hint
      by_cases hset : IsSet e "VALKEY_CACHE_URL"
      · cases (hname hset).symm.trans hg
      · cases (hvalue hset).symm.trans hg
  · intro haccepts
    have hbase : BaseAccepts P e := by
      cases env with
      | «local» => exact haccepts
      | test => exact haccepts
      | dev => exact haccepts.1
      | uat => exact haccepts.1
      | prod => exact haccepts.elim
    obtain ⟨b, hb⟩ := exists_run_base_iff.mpr hbase
    have hint := getItem_envInt_imports hb env
    refine ⟨b, hb, ?_⟩
    cases env with
    | «local» => exact exists_run_of_plain (by decide) (by decide)
    | test => exact exists_run_of_plain (by decide) (by decide)
    | dev => exact exists_run_dev_iff.mpr haccepts.2
    | uat =>
      refine (exists_run_uat_iff hbase hint ?_).mpr haccepts.2
      rw [getItem_imports, ← getItem_corsAllowAll hb]
      rfl
    | prod => exact haccepts.elim

variable (P) in
/-- The DSNs with which Sentry is initialised, or is not. -/
def SentryAccepts (e : Environ) : Prop :=
  LooksLikeUrl (sentryDsn e) → P.takesDsn (sentryDsn e) = true

theorem initSentry_eq_ok {e : Environ} : initSentry P e = .ok () ↔ SentryAccepts P e := by
  unfold initSentry SentryAccepts
  split
  · next hurl =>
    cases P.takesDsn (sentryDsn e) with
    | false => simp [hurl]
    | true => simp
  · next hurl => exact iff_of_true rfl fun h => absurd h hurl

theorem mapError_eq_ok {κ κ' α : Type} {x : Except κ α} {f : κ → κ'} {a : α} :
    x.mapError f = .ok a ↔ x = .ok a := by
  cases x with
  | error err => simp [Except.mapError]
  | ok a => simp [Except.mapError]

/-- What a startup is. -/
theorem startup_eq_ok {w : World} {os : Environ} {env : EnvName} {g : Globals SettingsError} :
    startup P w os = .ok (env, g) ↔
      (os "DJANGO_ENV".toList).bind EnvName.parse = some env ∧
        ∃ boot, load w os = .ok boot ∧ importModule P env boot.environ = .ok g ∧
          SentryAccepts P (varsIn P env boot.environ) := by
  constructor
  · intro h
    obtain ⟨boot, hboot, h⟩ := bind_eq_ok.mp h
    split at h
    · cases h
    · next env' henv =>
      obtain ⟨g', hg', h⟩ := bind_eq_ok.mp h
      obtain ⟨_, hsentry, h⟩ := bind_eq_ok.mp h
      obtain ⟨rfl, rfl⟩ := Prod.mk.inj (Except.ok.inj h)
      exact ⟨henv, boot, mapError_eq_ok.mp hboot, mapError_eq_ok.mp hg',
        initSentry_eq_ok.mp hsentry⟩
  · rintro ⟨henv, boot, hboot, hg, hsentry⟩
    rw [startup, henv, mapError_eq_ok.mpr hboot]
    change (importModule P env boot.environ).mapError Failure.settings >>= _ = _
    rw [mapError_eq_ok.mpr hg]
    change initSentry P (varsIn P env boot.environ) >>= _ = _
    rw [initSentry_eq_ok.mpr hsentry]
    rfl

/-- Once `base.py` has loaded, the module of the environment is run. -/
theorem importModule_of_base {e : Environ} {b : Globals SettingsError} {env : EnvName}
    (hb : run (varsIn P env e) [] (base P) = .ok b) :
    importModule P env e =
      run (varsIn P env e) ((moduleOf env).imports b) (moduleOf env).body := by
  rw [importModule, hb]
  rfl

/-- A module that raises. -/
theorem startup_of_error {w : World} {os : Environ} {env : EnvName} {boot : Boot}
    {err : Raised SettingsError}
    (henv : (os "DJANGO_ENV".toList).bind EnvName.parse = some env) (hload : load w os = .ok boot)
    (himport : importModule P env boot.environ = .error err) :
    startup P w os = .error (.settings err) := by
  rw [startup, henv, mapError_eq_ok.mpr hload]
  change (importModule P env boot.environ).mapError Failure.settings >>= _ = _
  rw [himport]
  rfl

/-- **Startup.** The service starts in an environment exactly if `DJANGO_ENV` names it, the loader
succeeds, and the variables it leaves are as the settings want them and have no DSN that Sentry
would not take. None are such in production. -/
theorem startup_iff {w : World} {os : Environ} {env : EnvName} :
    (∃ g, startup P w os = .ok (env, g)) ↔
      (os "DJANGO_ENV".toList).bind EnvName.parse = some env ∧
        ∃ boot, load w os = .ok boot ∧ Accepts P env (varsIn P env boot.environ) ∧
          SentryAccepts P (varsIn P env boot.environ) := by
  simp only [startup_eq_ok, ← exists_importModule_iff]
  constructor
  · rintro ⟨g, henv, boot, hboot, hg, hsentry⟩
    exact ⟨henv, boot, hboot, ⟨g, hg⟩, hsentry⟩
  · rintro ⟨henv, boot, hboot, ⟨g, hg⟩, hsentry⟩
    exact ⟨g, henv, boot, hboot, hg, hsentry⟩

/-- **Production.** Where the loader and `base.py` have nothing against the variables, production
fails all the same: without `VALKEY_CACHE_URL` with the error for that, and with it, whatever else is
set, with a `NameError` of `_env_int`. No other check of `prod.py` is reached. -/
theorem production_startup {w : World} {os : Environ} {boot : Boot}
    (henv : os "DJANGO_ENV".toList = some "prod".toList) (hload : load w os = .ok boot)
    (hbase : BaseAccepts P (varsIn P .prod boot.environ)) :
    startup P w os = .error (.settings
      (if (varsIn P .prod boot.environ "VALKEY_CACHE_URL".toList).getD [] = [] then
        .raised (.valueError valkeyMissing.toList)
      else .nameError "_env_int".toList)) := by
  obtain ⟨b, hb⟩ := exists_run_base_iff.mpr hbase
  obtain ⟨hname, hvalue⟩ := run_prod (e := varsIn P .prod boot.environ)
    (getItem_envInt_imports hb .prod)
  have hprod : (os "DJANGO_ENV".toList).bind EnvName.parse = some .prod := by
    rw [henv]
    decide
  refine startup_of_error hprod hload ((importModule_of_base hb).trans ?_)
  split
  · next hunset => exact hvalue (not_not.mpr hunset)
  · next hset => exact hname hset

/-- `os.getenv(var) or SECRET_KEY`, where the variable is set. -/
theorem eval_either_getenv {e : Environ} {g : Globals SettingsError} {var : String}
    (hset : IsSet e var) (y : Expr SettingsError) :
    (Expr.either (getenv var) y).eval e g = .ok (valueOf e var) := by
  rw [Expr.eval, eval_getenv]
  change (if (valueOf e var).truthy then _ else _) = _
  rw [if_pos (truthy_valueOf.mpr hset)]
  rfl

/-- The key that signs tokens. -/
theorem getItem_simpleJwt {e : Environ} {g : Globals SettingsError}
    (h : run e [] (base P) = .ok g) (hset : IsSet e "JWT_SIGNING_KEY") :
    getItem g "SIMPLE_JWT".toList =
      some (.value (.dict [("SIGNING_KEY".toList, valueOf e "JWT_SIGNING_KEY")])) := by
  obtain ⟨m, v, -, hv, hget⟩ := getItem_run_of_assign
    (preamble P ++ (application ++ (sensitivePattern P :: services.take 2))) (services.drop 3)
    "SIMPLE_JWT".toList _ h (by decide)
  obtain ⟨w, items, hw, hitems, rfl⟩ := eval_item_eq_ok.mp hv
  obtain rfl := Except.ok.inj ((eval_either_getenv hset _).symm.trans hw)
  cases hitems
  exact hget

/-- The key of the encrypted fields. -/
theorem getItem_resilience {e : Environ} {g : Globals SettingsError}
    (h : run e [] (base P) = .ok g) (hset : IsSet e "FIELD_ENCRYPTION_KEY") :
    ∃ defaults, getItem g "RESILIENCE".toList = some (.value (.dict
      [("defaults".toList, defaults), ("crypto".toList,
        .dict [("field_encryption_key".toList, valueOf e "FIELD_ENCRYPTION_KEY")])])) := by
  obtain ⟨m, v, -, hv, hget⟩ := getItem_run_of_assign
    (preamble P ++ (application ++ (sensitivePattern P :: services.take 1))) (services.drop 2)
    "RESILIENCE".toList _ h (by decide)
  obtain ⟨defaults, items, -, hitems, rfl⟩ := eval_item_eq_ok.mp hv
  obtain ⟨crypto, rest, hcrypto, hrest, hitems⟩ := eval_item_eq_ok.mp hitems
  obtain ⟨key, none, hkey, hnone, rfl⟩ := eval_item_eq_ok.mp hcrypto
  obtain rfl := Except.ok.inj ((eval_either_getenv hset _).symm.trans hkey)
  cases hrest
  cases hnone
  cases hitems
  exact ⟨defaults, hget⟩

/-- How the settings of a deployment are secured: the keys in `SIMPLE_JWT` and `RESILIENCE` are the
variables for them and not `SECRET_KEY`, and `ALLOWED_HOSTS` names hosts. -/
structure Secured (e : Environ) (g : Globals SettingsError) : Prop where
  signing : IsSet e "JWT_SIGNING_KEY" ∧ getItem g "SIMPLE_JWT".toList =
    some (.value (.dict [("SIGNING_KEY".toList, valueOf e "JWT_SIGNING_KEY")]))
  encryption : IsSet e "FIELD_ENCRYPTION_KEY" ∧ ∃ defaults, getItem g "RESILIENCE".toList =
    some (.value (.dict [("defaults".toList, defaults), ("crypto".toList,
      .dict [("field_encryption_key".toList, valueOf e "FIELD_ENCRYPTION_KEY")])]))
  hosts : hostsOf e ≠ [] ∧ getItem g "ALLOWED_HOSTS".toList =
    some (.value (.seq ((hostsOf e).map Value.str)))

/-- The settings of a module are those of `base.py`, where it does not bind them itself. -/
theorem getItem_module {e : Environ} {b g : Globals SettingsError} {env : EnvName} {n : Str}
    (h : run e ((moduleOf env).imports b) (moduleOf env).body = .ok g)
    (hpublic : ['_'].isPrefixOf n = false) (hn : n ∉ bound (moduleOf env).body) :
    getItem g n = getItem b n := by
  rw [getItem_run_of_not_mem hn h, getItem_imports, if_pos (.inl hpublic)]

/-- The hosts of a module that takes them from the environment. -/
theorem getItem_allowedHosts {e : Environ} {g g' : Globals SettingsError}
    {s : Stmt SettingsError} {rest : List (Stmt SettingsError)}
    (h : run e g (s :: allowedHosts :: rest) = .ok g')
    (hrest : "ALLOWED_HOSTS".toList ∉ bound rest) :
    getItem g' "ALLOWED_HOSTS".toList = some (.value (.seq ((hostsOf e).map Value.str))) := by
  obtain ⟨m, v, -, hv, hget⟩ := getItem_run_of_assign [s] rest "ALLOWED_HOSTS".toList _ h hrest
  obtain rfl := Except.ok.inj ((eval_hosts e m).symm.trans hv)
  exact hget

/-- **Secured settings.** What starts in `dev` or `uat` has secured settings, and in `uat` also
`DEBUG` off and no `CORS_ALLOW_ALL_ORIGINS`. -/
theorem startup_secured {w : World} {os : Environ} {env : EnvName} {g : Globals SettingsError}
    (hstartup : startup P w os = .ok (env, g)) (henv : env = .dev ∨ env = .uat) :
    ∃ boot, load w os = .ok boot ∧ Secured (varsIn P env boot.environ) g ∧
      (env = .uat → getItem g "DEBUG".toList = some (.value (.bool false)) ∧
        getItem g "CORS_ALLOW_ALL_ORIGINS".toList = none) := by
  obtain ⟨-, boot, hload, himport, -⟩ := startup_eq_ok.mp hstartup
  have haccepts := exists_importModule_iff.mp ⟨g, himport⟩
  obtain ⟨b, hb, hg⟩ := bind_eq_ok.mp himport
  refine ⟨boot, hload, ?_⟩
  generalize varsIn P env boot.environ = e at haccepts hb hg
  rcases henv with rfl | rfl
  · obtain ⟨-, hdeployable⟩ := haccepts
    have hsigning := getItem_simpleJwt hb hdeployable.signingKey
    obtain ⟨defaults, hencryption⟩ := getItem_resilience hb hdeployable.encryptionKey
    refine ⟨⟨⟨hdeployable.signingKey, ?_⟩, ⟨hdeployable.encryptionKey, defaults, ?_⟩,
      hdeployable.hosts, ?_⟩, fun h => by cases h⟩
    · rw [getItem_module hg (by decide) (by decide), hsigning]
    · rw [getItem_module hg (by decide) (by decide), hencryption]
    · exact getItem_allowedHosts hg (by decide)
  · obtain ⟨-, hdeployable, hready⟩ := haccepts
    have hsigning := getItem_simpleJwt hb hdeployable.signingKey
    obtain ⟨defaults, hencryption⟩ := getItem_resilience hb hdeployable.encryptionKey
    refine ⟨⟨⟨hdeployable.signingKey, ?_⟩, ⟨hdeployable.encryptionKey, defaults, ?_⟩,
      hdeployable.hosts, ?_⟩, fun _ => ⟨?_, ?_⟩⟩
    · rw [getItem_module hg (by decide) (by decide), hsigning]
    · rw [getItem_module hg (by decide) (by decide), hencryption]
    · exact getItem_allowedHosts hg (by decide)
    · obtain ⟨m, v, -, hv, hget⟩ := getItem_run_of_assign [] (uatModule.body.drop 1)
        "DEBUG".toList _ hg (by decide)
      cases hv
      exact hget
    · rw [getItem_module hg (by decide) (by decide), getItem_corsAllowAll hb,
        if_neg hready.origins]

/-! ## Two environments -/

/-- A process with these variables. -/
def process (vars : List (String × String)) : Environ :=
  fun k => getItem (vars.map fun v => (v.1.toList, v.2.toList)) k

/-- A host without files or secrets. -/
def bareWorld : World where
  reprs := ⟨fun _ => false, fun typeName _ => typeName⟩
  loads _ := none
  envFile _ := none
  getSecretValue _ _ := .clientError

/-- Python, with numbers and letters of ASCII. -/
def plainPython : Python where
  reprs := ⟨fun _ => false, fun typeName _ => typeName⟩
  ints := DbUrl.IntReader.ascii
  casing := Casing.basic
  compiles _ := true
  legacyEnvAlias e := e
  takesDsn _ := false

/-- Everything that `uat.py` and `prod.py` ask for. -/
def complete (env : String) : Environ :=
  process [("DJANGO_ENV", env), ("SECRET_KEY", "k"), ("VALKEY_CACHE_URL", "valkey://v:6379/2"),
    ("CELERY_BROKER_URL", "valkey://v:6379/3"), ("CELERY_RESULT_BACKEND", "django-db"),
    ("ALLOWED_HOSTS", "api.example.com"), ("POSTGRES_DB", "app"), ("POSTGRES_HOST", "db"),
    ("POSTGRES_PASSWORD", "s3cret"), ("JWT_SIGNING_KEY", "j"), ("FIELD_ENCRYPTION_KEY", "f")]

/-- The loader leaves them as they are. -/
theorem load_complete {env : String} (henv : env = "prod" ∨ env = "uat") :
    load bareWorld (complete env) = .ok ⟨complete env, false⟩ := by
  rcases henv with rfl | rfl
  · rfl
  · rfl

/-- `base.py` has nothing against them. -/
theorem baseAccepts_complete {env : String} (henv : env = "prod" ∨ env = "uat") :
    BaseAccepts plainPython (complete env) := by
  have hunset : (∀ c ∈ baseInts, complete env c.1.toList = none) ∧
      (∀ var ∈ baseBools, complete env var.toList = none) ∧ IsSet (complete env) "SECRET_KEY" := by
    rcases henv with rfl | rfl
    · exact ⟨by decide, by decide, by decide⟩
    · exact ⟨by decide, by decide, by decide⟩
  obtain ⟨hints, hbools, hkey⟩ := hunset
  refine ⟨hkey, ?_, ?_, rfl⟩
  · intro c hc v hv
    rw [hints c hc] at hv
    cases hv
  · intro var hvar v hv
    rw [hbools var hvar] at hv
    cases hv

theorem production_startup_complete :
    startup plainPython bareWorld (complete "prod") =
      .error (.settings (.nameError "_env_int".toList)) := by
  have hset : IsSet (varsIn plainPython .prod (Boot.mk (complete "prod") false).environ)
      "VALKEY_CACHE_URL" := by decide
  rw [production_startup (by decide) (load_complete (.inl rfl))
    (baseAccepts_complete (.inl rfl)), if_neg hset]

theorem startup_secured_complete :
    ∃ g, startup plainPython bareWorld (complete "uat") = .ok (.uat, g) ∧
      getItem g "SIMPLE_JWT".toList =
        some (.value (.dict [("SIGNING_KEY".toList, .str "j".toList)])) := by
  have haccepts : Accepts plainPython .uat (varsIn plainPython .uat (complete "uat")) := by
    refine ⟨baseAccepts_complete (.inr rfl), ⟨?_, ?_, ?_, ?_, ?_⟩, ⟨?_, ?_, ?_, ?_⟩⟩
    all_goals decide
  have hsentry : SentryAccepts plainPython (varsIn plainPython .uat (complete "uat")) :=
    fun hurl => absurd hurl (by decide)
  obtain ⟨g, hg⟩ := exists_importModule_iff.mpr haccepts
  have hstartup : startup plainPython bareWorld (complete "uat") = .ok (.uat, g) :=
    startup_eq_ok.mpr ⟨by decide, _, load_complete (.inr rfl), hg, hsentry⟩
  obtain ⟨boot, hload, hsecured, -⟩ := startup_secured hstartup (.inr rfl)
  obtain rfl := Except.ok.inj ((load_complete (.inr rfl)).symm.trans hload)
  exact ⟨g, hstartup, hsecured.signing.2⟩

end Startup

end DjangoBoilerplate
