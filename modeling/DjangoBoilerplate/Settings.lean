import DjangoBoilerplate.Repr

/-!
# Loading the environment

`config/settings/__init__.py` fills `os.environ` before the settings module of the
environment is imported: first from the file `environment/.env.{env}`, then, in `dev`
and `prod`, from a secret in AWS Secrets Manager. Each of the two passes sets the
variables that are not there yet and leaves the others alone, so whichever pass comes
first decides a key that is in both sources. It is the file; the documentation says the
secret.

The call to AWS and `json.loads` are parameters.
-/

namespace DjangoBoilerplate

namespace Settings

/-- `os.environ`. -/
abbrev Environ : Type := Str → Option Str

/-- The values `DJANGO_ENV` may have. -/
inductive EnvName : Type where
  | local
  | dev
  | uat
  | prod
  | test
  deriving DecidableEq

/-- `env in _VALID_ENVS`. -/
def EnvName.parse (s : Str) : Option EnvName :=
  if s = "local".toList then some .local
  else if s = "dev".toList then some .dev
  else if s = "uat".toList then some .uat
  else if s = "prod".toList then some .prod
  else if s = "test".toList then some .test
  else none

/-- Why the loader raises. -/
inductive BootError : Type where
  /-- `DJANGO_ENV` is missing or empty -/
  | envNotSet : BootError
  /-- it has another value -/
  | invalidEnv : Str → BootError
  /-- the secret cannot be fetched, in `prod` -/
  | secretUnavailable : Str → BootError
  /-- the secret is not a JSON object -/
  | malformedSecret : BootError
  /-- a name or value `os.environ` does not take -/
  | illegalVariable : Str → BootError

/-- What `get_secret_value` answers. -/
inductive SecretResponse : Type where
  /-- a `ClientError` -/
  | clientError : SecretResponse
  /-- a response without `SecretString` -/
  | binary : SecretResponse
  /-- `SecretString` -/
  | text : Str → SecretResponse

/-- What the loader depends on. -/
structure World : Type where
  /-- `repr` -/
  reprs : Reprs
  /-- `json.loads` -/
  loads : Str → Option Value
  /-- the file `.env.{env}`, if it exists, with the values it gives -/
  envFile : EnvName → Option (List (Str × Str))
  /-- AWS, by the name of the secret and the region -/
  getSecretValue : Str → Str → SecretResponse

/-- What a load leaves. -/
structure Boot : Type where
  /-- `os.environ` -/
  environ : Environ
  /-- was there a warning that AWS is unavailable? -/
  warned : Bool

/-! ## The two passes -/

/-- `os.environ[key] = value`. -/
def Environ.set (e : Environ) (key value : Str) : Environ :=
  fun k => if k = key then some value else e k

/-- `load_dotenv(override=False)`: the file's values, where a variable is not set. -/
def loadDotenv (e : Environ) : List (Str × Str) → Environ
  | [] => e
  | (key, value) :: rest =>
    loadDotenv (if (e key).isSome then e else e.set key value) rest

/-- Does `os.environ` take this name and value? -/
def legalVariable (key value : Str) : Bool :=
  !key.isEmpty && !key.contains '=' && !key.contains '\x00' && !value.contains '\x00'

variable (w : World)

/-- The loop over the secret's items. -/
def overlay (e : Environ) : List (Str × Value) → Except BootError Environ
  | [] => .ok e
  | (key, value) :: rest =>
    if (e key).isSome then overlay e rest
    else if legalVariable key (value.toStr w.reprs) then
      overlay (e.set key (value.toStr w.reprs)) rest
    else .error (.illegalVariable key)

/-- `_load_secrets_from_aws(secret_name, region_name)`: `none` is the `RuntimeError` it
raises. -/
def loadSecretsFromAws (secretName regionName : Str) :
    Except BootError (Option (List (Str × Value))) :=
  match w.getSecretValue secretName regionName with
  | .clientError => .ok none
  | .binary => .ok (some [])
  | .text s =>
    match w.loads s with
    | some (.dict items) => .ok (some items)
    | _ => .error .malformedSecret

/-- `AWS_SECRET_NAME` -/
def secretNameKey : Str := "AWS_SECRET_NAME".toList

/-- `os.getenv("AWS_REGION", "ap-south-1")`. -/
def regionOf (e : Environ) : Str :=
  (e "AWS_REGION".toList).getD "ap-south-1".toList

/-- The environment once the file is loaded. -/
def withEnvFile (env : EnvName) (os : Environ) : Environ :=
  match w.envFile env with
  | some items => loadDotenv os items
  | none => os

/-- The part of the load that is for `dev` and `prod`. -/
def loadSecrets (env : EnvName) (e : Environ) : Except BootError Boot :=
  match e secretNameKey with
  | none => .ok ⟨e, false⟩
  | some [] => .ok ⟨e, false⟩
  | some (x :: name) =>
    match loadSecretsFromAws w (x :: name) (regionOf e) with
    | .error err => .error err
    | .ok (some secrets) => (overlay w e secrets).map fun e' => ⟨e', false⟩
    | .ok none => if env = .prod then .error (.secretUnavailable (x :: name)) else .ok ⟨e, true⟩

/-- The loader, from the environment of the process. -/
def load (os : Environ) : Except BootError Boot :=
  match os "DJANGO_ENV".toList with
  | none => .error .envNotSet
  | some [] => .error .envNotSet
  | some (x :: env) =>
    match EnvName.parse (x :: env) with
    | none => .error (.invalidEnv (x :: env))
    | some .test => .ok ⟨os, false⟩
    | some .local => .ok ⟨withEnvFile w .local os, false⟩
    | some .uat => .ok ⟨withEnvFile w .uat os, false⟩
    | some .dev => loadSecrets w .dev (withEnvFile w .dev os)
    | some .prod => loadSecrets w .prod (withEnvFile w .prod os)

/-! ## What the passes leave -/

variable {w}

/-- The file gives what was not set. -/
theorem loadDotenv_apply (items : List (Str × Str)) (e : Environ) (k : Str) :
    loadDotenv e items k = (e k).or (getItem items k) := by
  induction items generalizing e with
  | nil => simp [loadDotenv, getItem]
  | cons item items ih =>
    obtain ⟨key, value⟩ := item
    rw [loadDotenv, ih]
    rcases eq_or_ne k key with rfl | hne
    · cases hset : e k with
      | none => simp [getItem, Environ.set]
      | some v => simp [hset]
    · rw [getItem_cons_of_ne hne]
      cases (e key).isSome <;> simp [Environ.set, hne]

/-- The secret gives what was not set, as a string. -/
theorem overlay_apply {items : List (Str × Value)} {e e' : Environ}
    (h : overlay w e items = .ok e') (k : Str) :
    e' k = (e k).or ((getItem items k).map (Value.toStr w.reprs)) := by
  induction items generalizing e with
  | nil =>
    obtain rfl := Except.ok.inj h
    simp [getItem]
  | cons item items ih =>
    obtain ⟨key, value⟩ := item
    rw [overlay] at h
    split at h
    · next hset =>
      rw [ih h]
      rcases eq_or_ne k key with rfl | hne
      · obtain ⟨v, hv⟩ := Option.isSome_iff_exists.mp hset
        rw [hv]
        rfl
      · rw [getItem_cons_of_ne hne]
    · next hset =>
      split at h
      · rw [ih h]
        rcases eq_or_ne k key with rfl | hne
        · have hnone : e k = none := Option.not_isSome_iff_eq_none.mp hset
          simp [Environ.set, hnone, getItem]
        · rw [getItem_cons_of_ne hne]
          simp [Environ.set, hne]
      · cases h

/-- What the file gives, nothing if there is none. -/
def World.fileItems (w : World) (env : EnvName) : List (Str × Str) :=
  (w.envFile env).getD []

theorem withEnvFile_apply (env : EnvName) (os : Environ) (k : Str) :
    withEnvFile w env os k = (os k).or (getItem (w.fileItems env) k) := by
  rw [withEnvFile, World.fileItems]
  cases w.envFile env with
  | none => simp [getItem]
  | some items => exact loadDotenv_apply items os k

/-! ## Precedence -/

/-- A load in `dev` or `prod` that fetches this secret. -/
structure Fetches (w : World) (os : Environ) (env : EnvName) (secrets : List (Str × Value)) :
    Prop where
  /-- `DJANGO_ENV` -/
  env_eq : (os "DJANGO_ENV".toList).bind EnvName.parse = some env
  /-- one of the two environments that have secrets -/
  dev_or_prod : env = .dev ∨ env = .prod
  /-- `AWS_SECRET_NAME` is set, in the process or in the file, and AWS answers -/
  fetched : ∃ name, withEnvFile w env os secretNameKey = some name ∧ name ≠ [] ∧
    loadSecretsFromAws w name (regionOf (withEnvFile w env os)) = .ok (some secrets)

/-- Such a load is the two passes, one after the other. -/
theorem load_of_fetches {os : Environ} {env : EnvName} {secrets : List (Str × Value)}
    (h : Fetches w os env secrets) :
    load w os = (overlay w (withEnvFile w env os) secrets).map fun e => ⟨e, false⟩ := by
  obtain ⟨henv, hcloud, name, hname, hne, hfetch⟩ := h
  have hload : load w os = loadSecrets w env (withEnvFile w env os) := by
    obtain ⟨s, hs, hparse⟩ := Option.bind_eq_some_iff.mp henv
    rw [load, hs]
    cases s with
    | nil => cases hparse
    | cons x s =>
      simp only [hparse]
      rcases hcloud with rfl | rfl
      · rfl
      · rfl
  rw [hload, loadSecrets, hname]
  cases name with
  | nil => exact absurd rfl hne
  | cons x name => simp only [hfetch]

/-- The documented order: the process, then the secret, then the file. -/
def documented (r : Reprs) (os : Environ) (secrets : List (Str × Value))
    (file : List (Str × Str)) : Environ :=
  fun k => (os k).or (((getItem secrets k).map (Value.toStr r)).or (getItem file k))

/-- **Precedence.** A load that fetches a secret leaves every variable with the value
the documented order gives it exactly if the file says of every key it shares with the
secret what the secret does, unless the process has it. -/
theorem precedence_iff {os : Environ} {env : EnvName} {secrets : List (Str × Value)}
    {boot : Boot} (hfetches : Fetches w os env secrets) (hload : load w os = .ok boot) :
    (∀ k, boot.environ k = documented w.reprs os secrets (w.fileItems env) k) ↔
      ∀ k, os k = none → ∀ value secret, getItem (w.fileItems env) k = some value →
        getItem secrets k = some secret → value = secret.toStr w.reprs := by
  rw [load_of_fetches hfetches] at hload
  cases hoverlay : overlay w (withEnvFile w env os) secrets with
  | error err =>
    rw [hoverlay] at hload
    cases hload
  | ok e =>
    rw [hoverlay] at hload
    obtain rfl := Except.ok.inj hload
    apply forall_congr'
    intro k
    simp only [overlay_apply hoverlay k, withEnvFile_apply, documented]
    cases os k with
    | some v => simp
    | none =>
      cases getItem (w.fileItems env) k with
      | none => simp
      | some value =>
        cases getItem secrets k with
        | none => simp
        | some secret => simp

/-- `DJANGO_ENV=prod` and nothing else. -/
def prodProcess : Environ :=
  fun k => if k = "DJANGO_ENV".toList then some "prod".toList else none

/-- The database password in the secret. -/
def dbSecret : List (Str × Value) := [("DB_PASSWORD".toList, .str "s3cret".toList)]

/-- A production host with this password, if any, in its file, and another one in the
secret. -/
def prodWorld (password : Option Str) : World where
  reprs := ⟨fun _ => false, fun typeName _ => typeName⟩
  loads s :=
    if s = "\x7b\x22DB_PASSWORD\x22: \x22s3cret\x22\x7d".toList then some (.dict dbSecret) else none
  envFile
    | .prod => some ((secretNameKey, "app".toList) ::
        (password.map fun p => ("DB_PASSWORD".toList, p)).toList)
    | _ => none
  getSecretValue _ _ := .text "\x7b\x22DB_PASSWORD\x22: \x22s3cret\x22\x7d".toList

/-- The load fetches the secret. -/
theorem fetches_prodWorld (password : Option Str) :
    Fetches (prodWorld password) prodProcess .prod dbSecret := by
  refine ⟨by decide, Or.inr rfl, "app".toList, ?_, by decide, ?_⟩
  · have hunset : prodProcess secretNameKey = none := by decide
    rw [withEnvFile_apply, hunset, Option.none_or]
    exact List.lookup_cons_self
  · rw [loadSecretsFromAws, prodWorld]
    simp only [if_true]

/-- With a placeholder in the file, the loader leaves that. -/
theorem file_shadows_secret :
    ¬ ∀ (w : World) (os : Environ) (env : EnvName) (secrets : List (Str × Value)) (boot : Boot),
      Fetches w os env secrets → load w os = .ok boot →
        ∀ k, boot.environ k = documented w.reprs os secrets (w.fileItems env) k := by
  intro halways
  have hfetches := fetches_prodWorld (some "changeme".toList)
  have hload : load (prodWorld (some "changeme".toList)) prodProcess =
      .ok ⟨withEnvFile (prodWorld (some "changeme".toList)) .prod prodProcess, false⟩ := by
    rw [load_of_fetches hfetches]
    rfl
  have hvalue := halways _ _ _ _ _ hfetches hload "DB_PASSWORD".toList
  revert hvalue
  decide +kernel

/-- Without one, the loader leaves the secret. -/
theorem secret_loaded :
    ∃ boot, load (prodWorld none) prodProcess = .ok boot ∧
      boot.environ "DB_PASSWORD".toList = some "s3cret".toList ∧
      ∀ k, boot.environ k = documented (prodWorld none).reprs prodProcess dbSecret
        ((prodWorld none).fileItems .prod) k := by
  have hload : load (prodWorld none) prodProcess = .ok ⟨(withEnvFile (prodWorld none) .prod
      prodProcess).set "DB_PASSWORD".toList "s3cret".toList, false⟩ := by
    rw [load_of_fetches (fetches_prodWorld none)]
    rfl
  refine ⟨_, hload, rfl, ?_⟩
  apply (precedence_iff (fetches_prodWorld none) hload).mpr
  intro k _ value secret hvalue hsecret
  -- the file and the secret share no key
  rcases eq_or_ne k "DB_PASSWORD".toList with rfl | hne
  · have hnone : getItem ((prodWorld none).fileItems .prod) "DB_PASSWORD".toList = none := by
      decide
    rw [hnone] at hvalue
    cases hvalue
  · rw [dbSecret, getItem_cons_of_ne hne] at hsecret
    cases hsecret

end Settings

end DjangoBoilerplate
