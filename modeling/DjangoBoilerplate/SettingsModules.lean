import DjangoBoilerplate.DbUrl
import DjangoBoilerplate.Scripts
import DjangoBoilerplate.Settings

/-!
# The settings modules

`config/settings/base.py`, `local.py`, `dev.py`, `uat.py`, `prod.py` and `test.py` as scripts, run
on the environment that the loader of `config/settings/__init__.py` leaves. Each of the last five
begins with `from .base import *`. Of the settings, those are here that may fail to load, that a
later check reads, or that decide how the service is secured. What `__init__.py` does afterwards
can fail too: it initialises Sentry.
-/

namespace DjangoBoilerplate

namespace Startup

open Settings Scripts

/-! ## The settings modules -/

/-- What a settings module raises itself. -/
inductive SettingsError : Type where
  /-- `ImproperlyConfigured(message)` -/
  | improperlyConfigured (message : Str) : SettingsError
  /-- `ValueError(message)` -/
  | valueError (message : Str) : SettingsError
  /-- `re.error` -/
  | reError : SettingsError

/-- What the settings modules call. -/
structure Python : Type where
  /-- `repr` -/
  reprs : Reprs
  /-- `int(s)` -/
  ints : DbUrl.IntReader
  /-- `str.lower()` -/
  casing : Casing
  /-- is it a regular expression? -/
  compiles : Str → Bool
  /-- `resilience_kit.runtime.legacy_env_alias()` -/
  legacyEnvAlias : Environ → Environ
  /-- does `sentry_sdk.init(dsn=...)` take it? -/
  takesDsn : Str → Bool

variable (P : Python)

/-- `_env_int(name, default)`. -/
def envInt (e : Environ) (name default : Str) : Except SettingsError Value :=
  let value := (e name).getD default
  match P.ints.ofStr value with
  | some n => .ok (.int n)
  | none => .error (.improperlyConfigured
      (name ++ '=' :: strRepr P.reprs value ++ " is not a valid integer".toList))

/-- `_env_bool(name, default)`. -/
def envBool (e : Environ) (name default : Str) : Except SettingsError Value :=
  let value := P.casing.lower ((e name).getD default).strip
  if value ∈ ["true", "1", "yes", "on"].map String.toList then .ok (.bool true)
  else if value ∈ ["false", "0", "no", "off", ""].map String.toList then .ok (.bool false)
  else .error (.improperlyConfigured
    (name ++ '=' :: strRepr P.reprs value ++ " is not a valid boolean".toList))

/-- `os.getenv(var)` -/
def getenv (var : String) : Expr SettingsError := .getenv var.toList .none

/-- `os.getenv(var, default)` -/
def getenvOr (var default : String) : Expr SettingsError :=
  .getenv var.toList (.str default.toList)

/-- `[p.strip() for p in s.split(",") if p.strip()]`. -/
def parts (s : Str) : List Str := ((s.split ',').map Str.strip).filter fun p => !p.isEmpty

/-- The same, of an expression. -/
def partsOf (x : Expr SettingsError) : Expr SettingsError :=
  .text (fun s => .seq ((parts s).map Value.str)) x

/-- `x == text`, of a `str`. -/
def equals (text : String) (x : Expr SettingsError) : Expr SettingsError :=
  .text (fun s => .bool (s = text.toList)) x

/-- `name = x` -/
def assign (name : String) (x : Expr SettingsError) : Stmt SettingsError := .assign name.toList x

/-- `name` -/
def global (name : String) : Expr SettingsError := .name name.toList

/-- `_env_int(var, default)` -/
def callEnvInt (var default : String) : Expr SettingsError :=
  .call "_env_int".toList var.toList default.toList

/-- `_env_bool(var, default)` -/
def callEnvBool (var default : String) : Expr SettingsError :=
  .call "_env_bool".toList var.toList default.toList

/-- A `dict` display. -/
def display (items : List (String × Expr SettingsError)) : Expr SettingsError :=
  items.foldr (fun i rest => .item i.1.toList i.2 rest) .empty

/-- `_BASE_MASK_PATTERN` -/
def baseMaskPattern : Str :=
  ("password|passwd|secret|token|key|auth|credential|api_key|apikey|" ++
    "private|session|cookie|bearer|jwt|access_token|refresh_token").toList

/-- `_combined_pattern`, from `_user_mask_pattern`. -/
def combinedPattern (user : Str) : Str :=
  if user = [] then baseMaskPattern else baseMaskPattern ++ '|' :: user

/-- `re.compile(pattern, re.IGNORECASE)`. -/
def compilePattern (pattern : Str) : Except SettingsError Value :=
  if P.compiles pattern then .ok (.other "Pattern".toList none) else .error .reError

/-- `config/settings/base.py`, to the check of `SECRET_KEY`. -/
def preamble : List (Stmt SettingsError) :=
  [.define "_env_int".toList (envInt P),
    .define "_env_bool".toList (envBool P),
    assign "SECRET_KEY" (getenv "SECRET_KEY"),
    .raiseIf (global "SECRET_KEY").negate (.improperlyConfigured
      ("The SECRET_KEY environment variable is not set. ".toList ++
        "Set it in your .env file or environment.".toList))]

/-- To the settings of Celery. -/
def application : List (Stmt SettingsError) :=
  [assign "DEBUG" (equals "True" (getenvOr "DEBUG" "False")),
    assign "ALLOWED_HOSTS" (partsOf (getenvOr "ALLOWED_HOSTS" "")),
    assign "DATABASES" (display [("default", display
      [("NAME", getenvOr "POSTGRES_DB" "app"),
        ("USER", getenvOr "POSTGRES_USER" "postgres"),
        ("PASSWORD", getenvOr "POSTGRES_PASSWORD" "postgres"),
        ("HOST", getenvOr "POSTGRES_HOST" "localhost"),
        ("PORT", getenvOr "POSTGRES_PORT" "5432"),
        ("CONN_MAX_AGE", callEnvInt "DB_CONN_MAX_AGE" "600")])]),
    assign "REST_FRAMEWORK" (display [("NUM_PROXIES", callEnvInt "NUM_PROXIES" "0")]),
    assign "_cors_origins"
      (getenvOr "CORS_ALLOWED_ORIGINS" "http://localhost:3000,http://127.0.0.1:3000"),
    .branch (.text (fun s => .bool (s.strip = ['*'])) (global "_cors_origins"))
      [("CORS_ALLOW_ALL_ORIGINS".toList, .const (.bool true)),
        ("CORS_ALLOW_CREDENTIALS".toList, .const (.bool false))]
      [("CORS_ALLOWED_ORIGINS".toList, partsOf (global "_cors_origins")),
        ("CORS_ALLOW_CREDENTIALS".toList, .const (.bool true))],
    assign "CELERY_BROKER_URL" (getenvOr "CELERY_BROKER_URL" ""),
    assign "CELERY_RESULT_BACKEND" (getenvOr "CELERY_RESULT_BACKEND" "django-db"),
    assign "CELERY_TASK_TIME_LIMIT" (callEnvInt "CELERY_TASK_TIME_LIMIT" "1800"),
    assign "CELERY_TASK_SOFT_TIME_LIMIT" (callEnvInt "CELERY_TASK_SOFT_TIME_LIMIT" "1500"),
    assign "CELERY_WORKER_PREFETCH_MULTIPLIER"
      (callEnvInt "CELERY_WORKER_PREFETCH_MULTIPLIER" "1"),
    assign "CELERY_WORKER_CONCURRENCY" (callEnvInt "CELERY_WORKER_CONCURRENCY" "4"),
    assign "CELERY_WORKER_SEND_TASK_EVENTS" (callEnvBool "CELERY_SEND_EVENTS" "true"),
    assign "CELERY_TASK_SEND_SENT_EVENT" (callEnvBool "CELERY_SEND_EVENTS" "true"),
    assign "_user_mask_pattern" (getenvOr "LOG_MASK_PATTERN" "")]

/-- The pattern of the log sanitiser. -/
def sensitivePattern : Stmt SettingsError :=
  assign "_sensitive_pattern"
    (.attempt (fun user => compilePattern P (combinedPattern user)) (global "_user_mask_pattern"))

/-- The rest. -/
def services : List (Stmt SettingsError) :=
  [assign "LOG_SANITIZATION" (display
      [("MAX_STRING_LENGTH", callEnvInt "LOG_MAX_STRING_LENGTH" "200"),
        ("MAX_DICT_KEYS", callEnvInt "LOG_MAX_DICT_KEYS" "20"),
        ("MAX_LIST_ITEMS", callEnvInt "LOG_MAX_LIST_ITEMS" "10")]),
    assign "RESILIENCE" (display
      [("defaults", display
        [("circuit_breaker", display
            [("fail_max", callEnvInt "RESILIENCE_CB_FAIL_MAX" "5"),
              ("reset_timeout", callEnvInt "RESILIENCE_CB_RESET_TIMEOUT" "30")]),
          ("retry", display
            [("max_attempts", callEnvInt "RESILIENCE_RETRY_MAX_ATTEMPTS" "3"),
              ("wait_min", callEnvInt "RESILIENCE_RETRY_WAIT_MIN" "1"),
              ("wait_max", callEnvInt "RESILIENCE_RETRY_WAIT_MAX" "10")])]),
        ("crypto", display [("field_encryption_key",
          .either (getenv "FIELD_ENCRYPTION_KEY") (global "SECRET_KEY"))])]),
    assign "SIMPLE_JWT" (display
      [("SIGNING_KEY", .either (getenv "JWT_SIGNING_KEY") (global "SECRET_KEY"))]),
    assign "ASSET_MAX_BYTES" (callEnvInt "ASSET_MAX_BYTES" "26214400"),
    assign "SECURITY_HEADERS_ENABLED" (callEnvBool "SECURITY_HEADERS_ENABLED" "true"),
    assign "MAX_REQUEST_BODY_BYTES" (callEnvInt "MAX_REQUEST_BODY_BYTES" "2097152"),
    assign "API_LOG_QUEUE_MAX_IN_FLIGHT" (callEnvInt "API_LOG_QUEUE_MAX_IN_FLIGHT" "1000"),
    assign "API_LOG_QUEUE_WORKERS" (callEnvInt "API_LOG_QUEUE_WORKERS" "4"),
    assign "API_LOG_MAX_BODY_LEN" (callEnvInt "API_LOG_MAX_BODY_LEN" "4096"),
    assign "API_LOG_TTL_DAYS" (callEnvInt "API_LOG_TTL_DAYS" "0")]

/-- `config/settings/base.py`. -/
def base : List (Stmt SettingsError) :=
  preamble P ++ (application ++ (sensitivePattern P :: services))

/-- `ALLOWED_HOSTS = [...]` of `dev.py`, `uat.py` and `prod.py`. -/
def allowedHosts : Stmt SettingsError :=
  assign "ALLOWED_HOSTS" (partsOf (getenvOr "ALLOWED_HOSTS" ""))

/-- `if not x: raise ValueError(message)` -/
def required (x : Expr SettingsError) (message : String) : Stmt SettingsError :=
  .raiseIf x.negate (.valueError message.toList)

/-- `if not os.getenv("POSTGRES_DB") or not os.getenv("POSTGRES_HOST"): raise ...` -/
def requiredDatabase (message : String) : Stmt SettingsError :=
  .raiseIf (.either (getenv "POSTGRES_DB").negate (getenv "POSTGRES_HOST").negate)
    (.valueError message.toList)

/-- `if globals().get("CORS_ALLOW_ALL_ORIGINS", False): raise ...` -/
def noWildcard (message : String) : Stmt SettingsError :=
  .raiseIf (.globalsGet "CORS_ALLOW_ALL_ORIGINS".toList (.bool false)) (.valueError message.toList)

/-- A settings module: what it names in `from .base import ...` beside `*`, and the rest. -/
structure Module : Type where
  names : List Str
  body : List (Stmt SettingsError)

/-- `config/settings/local.py`. -/
def localModule : Module where
  names := []
  body :=
    [assign "DEBUG" (.const (.bool true)),
      assign "ALLOWED_HOSTS" (.const (.seq
        [.str "localhost".toList, .str "127.0.0.1".toList, .str "0.0.0.0".toList])),
      assign "CELERY_BROKER_URL" (getenvOr "CELERY_BROKER_URL" ""),
      assign "CELERY_RESULT_BACKEND" (getenvOr "CELERY_RESULT_BACKEND" "django-db")]

/-- `config/settings/dev.py`. -/
def devModule : Module where
  names := []
  body :=
    [assign "DEBUG" (equals "True" (getenvOr "DEBUG" "False")),
      allowedHosts,
      requiredDatabase
        "Database configuration (POSTGRES_DB, POSTGRES_HOST) must be set in dev environment",
      required (global "ALLOWED_HOSTS") "ALLOWED_HOSTS must be set in dev environment",
      required (getenv "JWT_SIGNING_KEY") ("JWT_SIGNING_KEY must be explicitly set in dev " ++
        "environment. Falling back to SECRET_KEY risks JWT forgery on key rotation."),
      required (getenv "FIELD_ENCRYPTION_KEY") ("FIELD_ENCRYPTION_KEY must be explicitly set in " ++
        "dev environment. Falling back to SECRET_KEY risks data corruption on key rotation.")]

/-- `config/settings/uat.py`. -/
def uatModule : Module where
  names := ["_env_int".toList]
  body :=
    [assign "DEBUG" (.const (.bool false)),
      allowedHosts,
      assign "_valkey_url" (getenv "VALKEY_CACHE_URL"),
      required (global "_valkey_url") ("VALKEY_CACHE_URL must be set in UAT environment. " ++
        "Valkey is required for cache, rate limiting, circuit breaker, and Celery broker."),
      assign "CELERY_BROKER_URL" (getenv "CELERY_BROKER_URL"),
      assign "CELERY_RESULT_BACKEND" (getenv "CELERY_RESULT_BACKEND"),
      assign "CELERY_WORKER_CONCURRENCY" (callEnvInt "CELERY_WORKER_CONCURRENCY" "2"),
      required (global "CELERY_BROKER_URL") "CELERY_BROKER_URL must be set in UAT environment",
      required (global "CELERY_RESULT_BACKEND")
        "CELERY_RESULT_BACKEND must be set in UAT environment",
      required (global "ALLOWED_HOSTS") "ALLOWED_HOSTS must be set in UAT environment",
      requiredDatabase ("Database configuration (POSTGRES_DB, POSTGRES_HOST) must be set in UAT — " ++
        "POSTGRES_HOST should point at the RDS endpoint."),
      required (getenv "JWT_SIGNING_KEY") ("JWT_SIGNING_KEY must be explicitly set in UAT. " ++
        "Falling back to SECRET_KEY risks JWT forgery on key rotation."),
      required (getenv "FIELD_ENCRYPTION_KEY") ("FIELD_ENCRYPTION_KEY must be explicitly set in " ++
        "UAT. Falling back to SECRET_KEY risks data corruption on key rotation."),
      noWildcard ("CORS_ALLOW_ALL_ORIGINS must not be True in UAT. " ++
        "Set CORS_ALLOWED_ORIGINS to specific origins (comma-separated).")]

/-- The message of `prod.py` without `VALKEY_CACHE_URL`. -/
def valkeyMissing : String :=
  "VALKEY_CACHE_URL must be set in production environment. " ++
    "Valkey is required for caching, rate limiting, and task management."

/-- `config/settings/prod.py`. -/
def prodModule : Module where
  names := []
  body :=
    [assign "DEBUG" (.const (.bool false)),
      allowedHosts,
      assign "_valkey_url" (getenv "VALKEY_CACHE_URL"),
      required (global "_valkey_url") valkeyMissing,
      assign "CELERY_BROKER_URL" (getenv "CELERY_BROKER_URL"),
      assign "CELERY_RESULT_BACKEND" (getenv "CELERY_RESULT_BACKEND"),
      assign "CELERY_WORKER_CONCURRENCY" (callEnvInt "CELERY_WORKER_CONCURRENCY" "4"),
      required (global "CELERY_BROKER_URL")
        "CELERY_BROKER_URL must be set in production environment",
      required (global "CELERY_RESULT_BACKEND")
        "CELERY_RESULT_BACKEND must be set in production environment",
      required (global "ALLOWED_HOSTS") "ALLOWED_HOSTS must be set in production environment",
      requiredDatabase
        "Database configuration (POSTGRES_DB, POSTGRES_HOST) must be set in production",
      assign "_db_password" (getenvOr "POSTGRES_PASSWORD" ""),
      .raiseIf (.either (global "_db_password").negate (equals "postgres" (global "_db_password")))
        (.valueError "POSTGRES_PASSWORD must be set to a non-default value in production".toList),
      noWildcard ("CORS_ALLOW_ALL_ORIGINS must not be True in production. " ++
        "Set CORS_ALLOWED_ORIGINS to specific origins (comma-separated)."),
      required (getenv "JWT_SIGNING_KEY") ("JWT_SIGNING_KEY must be explicitly set in production. " ++
        "Falling back to SECRET_KEY risks JWT forgery on key rotation."),
      required (getenv "FIELD_ENCRYPTION_KEY") ("FIELD_ENCRYPTION_KEY must be explicitly set in " ++
        "production. Falling back to SECRET_KEY risks data corruption on key rotation.")]

/-- `config/settings/test.py`, from its `from .base import *` on. -/
def testModule : Module where
  names := []
  body :=
    [assign "DEBUG" (.const (.bool false)),
      assign "ALLOWED_HOSTS" (.const (.seq
        [.str "testserver".toList, .str "localhost".toList, .str "127.0.0.1".toList])),
      assign "CELERY_BROKER_URL" (.const (.str "memory://".toList)),
      assign "CELERY_RESULT_BACKEND" (.const (.str "cache+memory://".toList)),
      assign "CORS_ALLOW_ALL_ORIGINS" (.const (.bool true))]

/-- The module of an environment. -/
def moduleOf : EnvName → Module
  | .local => localModule
  | .dev => devModule
  | .uat => uatModule
  | .prod => prodModule
  | .test => testModule

/-- `os.environ.setdefault(key, value)`. -/
def setDefault (e : Environ) (key value : String) : Environ :=
  if (e key.toList).isSome then e else e.set key.toList value.toList

/-- What an environment does before its `from .base import *`: `test.py` sets three defaults. -/
def prelude : EnvName → Environ → Environ
  | .test, e =>
    let e := setDefault e "SECRET_KEY" "test-secret-key-for-testing-only-not-for-production"
    let e := setDefault e "RESILIENCE_CRYPTO__ENVIRONMENT" "dev"
    setDefault e "RESILIENCE_CRYPTO__FIELD_ENCRYPTION_KEY"
      "MV5jaCu1Qx7tHzr6IkbAaWBNGoRxqQ0F2pmYpPzfvSE="
  | _, e => e

/-- The variables from the beginning of `base.py` on. -/
def varsIn (env : EnvName) (e : Environ) : Environ := P.legacyEnvAlias (prelude env e)

/-- The globals an environment's module begins with: `from .base import *`, and the names it asks
for. -/
def Module.imports (m : Module) (g : Globals SettingsError) : Globals SettingsError :=
  importStar g ++ g.filter fun b => b.1 ∈ m.names

/-- `importlib.import_module(f".{env}")`. -/
def importModule (env : EnvName) (e : Environ) :
    Except (Raised SettingsError) (Globals SettingsError) := do
  let g ← run (varsIn P env e) [] (base P)
  run (varsIn P env e) ((moduleOf env).imports g) (moduleOf env).body

/-- Why the service does not start. -/
inductive Failure : Type where
  /-- the loader -/
  | load (error : BootError) : Failure
  /-- the settings module -/
  | settings (error : Raised SettingsError) : Failure
  /-- `sentry_sdk.init` raises `BadDsn` -/
  | badDsn (dsn : Str) : Failure

/-- `_sentry_dsn` -/
def sentryDsn (e : Environ) : Str := ((e "SENTRY_DSN".toList).getD []).strip

/-- Does a DSN look like a URL? -/
def LooksLikeUrl (dsn : Str) : Prop := "https://".toList <+: dsn ∨ "http://".toList <+: dsn

instance (dsn : Str) : Decidable (LooksLikeUrl dsn) := inferInstanceAs (Decidable (_ ∨ _))

/-- The end of `config/settings/__init__.py`: Sentry, after the logging settings. -/
def initSentry (e : Environ) : Except Failure Unit :=
  if LooksLikeUrl (sentryDsn e) then
    if P.takesDsn (sentryDsn e) then .ok () else .error (.badDsn (sentryDsn e))
  else .ok ()

/-- `import config.settings`: the loader, the module of the environment, and Sentry. -/
def startup (w : World) (os : Environ) : Except Failure (EnvName × Globals SettingsError) := do
  let boot ← (load w os).mapError .load
  match (os "DJANGO_ENV".toList).bind EnvName.parse with
  | none => .error (.load .envNotSet)
  | some env => do
    let g ← (importModule P env boot.environ).mapError .settings
    initSentry P (varsIn P env boot.environ)
    return (env, g)

end Startup

end DjangoBoilerplate
