import DjangoBoilerplate.Json
import DjangoBoilerplate.Outlines

/-!
# The engine cache

`get_engine`, `dispose_engine` and `dispose_all_engines` of `apps/core/utils/db.py`, called by any
number of threads. The engines are cached under a digest of their URL. A lookup reads the cache
without the lock first, and under the lock once more before it creates an engine; a disposal takes
engines out of the cache under the lock and closes them after it has released the lock.

`Moves` says what one step of a call is.
-/

namespace DjangoBoilerplate

namespace EngineCache

open Outlines

/-! ## The calls -/

/-- What the module calls. -/
structure World : Type where
  /-- `hashlib.sha256(url.encode()).hexdigest()` -/
  digest : Str → Str
  /-- `make_url(url).render_as_string(hide_password=True)`, `none` where it raises -/
  maskUrl : Str → Option Str

/-- `**kwargs`. -/
abbrev Kwargs : Type := List (Str × Value)

/-- What `create_engine` is called with if the caller says nothing. -/
def defaults : Kwargs :=
  [("pool_pre_ping".toList, .bool true), ("pool_size".toList, .int 5),
    ("max_overflow".toList, .int 10),
    ("connect_args".toList, .dict [("connect_timeout".toList, .int 5),
      ("options".toList, .str "-c statement_timeout=30000".toList)])]

/-- `defaults.update(kwargs)`. -/
def options (kwargs : Kwargs) : Kwargs :=
  kwargs.foldl (fun d item => setItem d item.1 item.2) defaults

/-- An engine, by what it was created with. -/
structure Engine : Type where
  url : Str
  options : Kwargs

/-- Where an engine is. -/
inductive Place : Type where
  /-- not created yet -/
  | unborn : Place
  /-- in the cache -/
  | cached (key : Str) : Place
  /-- taken out by a call, which is to close it -/
  | held (i : ℕ) : Place
  /-- closed -/
  | disposed : Place
  /-- out of the cache, and no call will close it -/
  | lost : Place
  deriving DecidableEq

/-- The module's globals, and the engines. An engine is known by its number. -/
structure Memory : Type where
  /-- `_engine_cache` -/
  cache : List (Str × ℕ)
  /-- `_url_for_log` -/
  urlForLog : List (Str × Str)
  /-- the engines `create_engine` has returned -/
  engines : List Engine
  /-- how often `dispose()` was called on an engine -/
  disposals : ℕ → ℕ
  /-- history: where the engines are -/
  place : ℕ → Place

/-- Why a call raises. -/
inductive Error : Type where
  /-- the URL cannot be masked -/
  | mask : Error
  /-- `create_engine` -/
  | create : Error
  /-- `_engine_cache[key]` -/
  | key : Error
  /-- `engine.dispose()` -/
  | dispose : Error
  deriving DecidableEq

/-- Where a call is. -/
inductive Phase : Type where
  /-- not called yet -/
  | idle : Phase
  /-- `get_engine`, about to read the cache -/
  | reading (url : Str) (kwargs : Kwargs) : Phase
  /-- it found nothing, and waits for the lock -/
  | waiting (url : Str) (kwargs : Kwargs) : Phase
  /-- it holds the lock -/
  | checking (url : Str) (kwargs : Kwargs) : Phase
  /-- there is still nothing -/
  | masking (url : Str) (kwargs : Kwargs) : Phase
  /-- the URL is masked -/
  | creating (url : Str) (kwargs : Kwargs) (masked : Str) : Phase
  /-- the engine is in the cache -/
  | logging (url : Str) (masked : Str) : Phase
  /-- about to read what it returns -/
  | loading (url : Str) : Phase
  /-- about to release the lock -/
  | leaving (url : Str) (engine : ℕ) : Phase
  /-- `get_engine` has returned -/
  | got (url : Str) (engine : ℕ) : Phase
  /-- `dispose_engine`, waiting for the lock -/
  | disposing (url : Str) : Phase
  /-- it holds the lock -/
  | popping (url : Str) : Phase
  /-- what was in the cache is out -/
  | unlogging (url : Str) (engine : Option ℕ) : Phase
  /-- `dispose_all_engines`, waiting for the lock -/
  | disposingAll : Phase
  /-- it holds the lock -/
  | listing : Phase
  /-- it has listed the cache -/
  | clearing (engines : List ℕ) : Phase
  /-- it has emptied the cache -/
  | clearingUrls (engines : List ℕ) : Phase
  /-- a disposal about to release the lock -/
  | unlocking (engines : List ℕ) : Phase
  /-- it closes the engines -/
  | closing (engines : List ℕ) : Phase
  /-- it has returned -/
  | closed : Phase
  /-- an exception leaves the `with` block -/
  | failing (error : Error) : Phase
  /-- the call has raised -/
  | raised (error : Error) : Phase

/-- One step: a call begins or goes on, or what it has called raises. -/
inductive Label : Type where
  | getEngine (url : Str) (kwargs : Kwargs) : Label
  | disposeEngine (url : Str) : Label
  | disposeAllEngines : Label
  | advance : Label
  /-- `create_engine` raises -/
  | createRaises : Label
  /-- `engine.dispose()` raises -/
  | disposeRaises : Label

/-- Some engines are now at this place. -/
def Memory.put (m : Memory) (engines : List ℕ) (place : Place) : Memory :=
  { m with place := fun e => if e ∈ engines then place else m.place e }

/-- `_engine_cache[key] = create_engine(url, **defaults)`. -/
def Memory.create (m : Memory) (key url : Str) (kwargs : Kwargs) : Memory :=
  { m with
    cache := setItem m.cache key m.engines.length
    engines := m.engines ++ [⟨url, options kwargs⟩]
    place := Function.update m.place m.engines.length (.cached key) }

/-- `engine.dispose()`. -/
def Memory.dispose (m : Memory) (engine : ℕ) : Memory :=
  { m with
    disposals := Function.update m.disposals engine (m.disposals engine + 1)
    place := Function.update m.place engine .disposed }

variable (w : World)

/-- The code. -/
def next (i : ℕ) (m : Memory) : Phase → Label → Option (Move Memory Phase)
  | .idle, .getEngine url kwargs => some (.go m (.reading url kwargs))
  | .idle, .disposeEngine url => some (.go m (.disposing url))
  | .idle, .disposeAllEngines => some (.go m .disposingAll)
  | .reading url kwargs, .advance =>
    match getItem m.cache (w.digest url) with
    | some engine => some (.go m (.got url engine))
    | none => some (.go m (.waiting url kwargs))
  | .waiting url kwargs, .advance => some (.acquire (.checking url kwargs))
  | .checking url kwargs, .advance =>
    if (getItem m.cache (w.digest url)).isSome then some (.go m (.loading url))
    else some (.go m (.masking url kwargs))
  | .masking url kwargs, .advance =>
    match w.maskUrl url with
    | some masked => some (.go m (.creating url kwargs masked))
    | none => some (.go m (.failing .mask))
  | .creating url kwargs masked, .advance =>
    some (.go (m.create (w.digest url) url kwargs) (.logging url masked))
  | .creating _ _ _, .createRaises => some (.go m (.failing .create))
  | .logging url masked, .advance =>
    some (.go { m with urlForLog := setItem m.urlForLog (w.digest url) masked } (.loading url))
  | .loading url, .advance =>
    match getItem m.cache (w.digest url) with
    | some engine => some (.go m (.leaving url engine))
    | none => some (.go m (.failing .key))
  | .leaving url engine, .advance => some (.release m (.got url engine))
  | .disposing url, .advance => some (.acquire (.popping url))
  | .popping url, .advance =>
    let engine := getItem m.cache (w.digest url)
    some (.go ({ m with cache := popItem m.cache (w.digest url) }.put engine.toList (.held i))
      (.unlogging url engine))
  | .unlogging url engine, .advance =>
    -- the default of `_url_for_log.pop(key, _mask_url(url))` is evaluated in any case
    match w.maskUrl url with
    | some _ =>
      some (.go { m with urlForLog := popItem m.urlForLog (w.digest url) }
        (.unlocking engine.toList))
    | none => some (.go (m.put engine.toList .lost) (.failing .mask))
  | .disposingAll, .advance => some (.acquire .listing)
  | .listing, .advance => some (.go m (.clearing (m.cache.map Prod.snd)))
  | .clearing engines, .advance =>
    some (.go ({ m with cache := [] }.put engines (.held i)) (.clearingUrls engines))
  | .clearingUrls engines, .advance => some (.go { m with urlForLog := [] } (.unlocking engines))
  | .unlocking engines, .advance => some (.release m (.closing engines))
  | .closing [], .advance => some (.go m .closed)
  | .closing (engine :: engines), .advance => some (.go (m.dispose engine) (.closing engines))
  | .closing (engine :: engines), .disposeRaises =>
    -- the loop ends, and nothing closes the rest
    some (.go ((m.dispose engine).put engines .lost) (.raised .dispose))
  | .failing error, .advance => some (.release m (.raised error))
  | _, _ => none

/-- The threads. -/
def program : Program Memory Phase Label := ⟨next w⟩

/-- Before the first call. -/
def Memory.empty : Memory where
  cache := []
  urlForLog := []
  engines := []
  disposals := fun _ => 0
  place := fun _ => .unborn

/-- What one step is. -/
inductive Moves (i : ℕ) (m : Memory) : Phase → Label → Move Memory Phase → Prop where
  | callGet {url : Str} {kwargs : Kwargs} :
    Moves i m .idle (.getEngine url kwargs) (.go m (.reading url kwargs))
  | callDispose {url : Str} : Moves i m .idle (.disposeEngine url) (.go m (.disposing url))
  | callDisposeAll : Moves i m .idle .disposeAllEngines (.go m .disposingAll)
  | hit {url : Str} {kwargs : Kwargs} {engine : ℕ}
      (h : getItem m.cache (w.digest url) = some engine) :
    Moves i m (.reading url kwargs) .advance (.go m (.got url engine))
  | miss {url : Str} {kwargs : Kwargs} :
    Moves i m (.reading url kwargs) .advance (.go m (.waiting url kwargs))
  | lock {url : Str} {kwargs : Kwargs} :
    Moves i m (.waiting url kwargs) .advance (.acquire (.checking url kwargs))
  | present {url : Str} {kwargs : Kwargs}
      (h : (getItem m.cache (w.digest url)).isSome = true) :
    Moves i m (.checking url kwargs) .advance (.go m (.loading url))
  | absent {url : Str} {kwargs : Kwargs} (h : getItem m.cache (w.digest url) = none) :
    Moves i m (.checking url kwargs) .advance (.go m (.masking url kwargs))
  | mask {url : Str} {kwargs : Kwargs} {masked : Str} (h : w.maskUrl url = some masked) :
    Moves i m (.masking url kwargs) .advance (.go m (.creating url kwargs masked))
  | maskRaises {url : Str} {kwargs : Kwargs} :
    Moves i m (.masking url kwargs) .advance (.go m (.failing .mask))
  | create {url : Str} {kwargs : Kwargs} {masked : Str} :
    Moves i m (.creating url kwargs masked) .advance
      (.go (m.create (w.digest url) url kwargs) (.logging url masked))
  | createRaises {url : Str} {kwargs : Kwargs} {masked : Str} :
    Moves i m (.creating url kwargs masked) .createRaises (.go m (.failing .create))
  | log {url masked : Str} :
    Moves i m (.logging url masked) .advance
      (.go { m with urlForLog := setItem m.urlForLog (w.digest url) masked } (.loading url))
  | load {url : Str} {engine : ℕ} (h : getItem m.cache (w.digest url) = some engine) :
    Moves i m (.loading url) .advance (.go m (.leaving url engine))
  | loadRaises {url : Str} (h : getItem m.cache (w.digest url) = none) :
    Moves i m (.loading url) .advance (.go m (.failing .key))
  | leave {url : Str} {engine : ℕ} :
    Moves i m (.leaving url engine) .advance (.release m (.got url engine))
  | lockDispose {url : Str} : Moves i m (.disposing url) .advance (.acquire (.popping url))
  | pop {url : Str} :
    Moves i m (.popping url) .advance
      (.go ({ m with cache := popItem m.cache (w.digest url) }.put
          (getItem m.cache (w.digest url)).toList (.held i))
        (.unlogging url (getItem m.cache (w.digest url))))
  | unlog {url : Str} {engine : Option ℕ} :
    Moves i m (.unlogging url engine) .advance
      (.go { m with urlForLog := popItem m.urlForLog (w.digest url) } (.unlocking engine.toList))
  | unlogRaises {url : Str} {engine : Option ℕ} (h : w.maskUrl url = none) :
    Moves i m (.unlogging url engine) .advance
      (.go (m.put engine.toList .lost) (.failing .mask))
  | lockAll : Moves i m .disposingAll .advance (.acquire .listing)
  | list : Moves i m .listing .advance (.go m (.clearing (m.cache.map Prod.snd)))
  | clear {engines : List ℕ} :
    Moves i m (.clearing engines) .advance
      (.go ({ m with cache := [] }.put engines (.held i)) (.clearingUrls engines))
  | clearUrls {engines : List ℕ} :
    Moves i m (.clearingUrls engines) .advance (.go { m with urlForLog := [] } (.unlocking engines))
  | unlock {engines : List ℕ} :
    Moves i m (.unlocking engines) .advance (.release m (.closing engines))
  | closeDone : Moves i m (.closing []) .advance (.go m .closed)
  | close {engine : ℕ} {engines : List ℕ} :
    Moves i m (.closing (engine :: engines)) .advance (.go (m.dispose engine) (.closing engines))
  | closeRaises {engine : ℕ} {engines : List ℕ} :
    Moves i m (.closing (engine :: engines)) .disposeRaises
      (.go ((m.dispose engine).put engines .lost) (.raised .dispose))
  | fail {error : Error} : Moves i m (.failing error) .advance (.release m (.raised error))

variable {w}

/-- The code has no other steps. -/
theorem moves_of_next {i : ℕ} {m : Memory} {p : Phase} {l : Label} {move : Move Memory Phase}
    (h : (program w).next i m p l = some move) : Moves w i m p l move := by
  change next w i m p l = some move at h
  -- one case an arm of `next`; the last of them is its `_, _ => none`
  revert h
  fun_cases next w i m p l <;> intro h <;> cases h
  case case8 hget => exact .absent (Option.not_isSome_iff_eq_none.mp hget)
  all_goals constructor
  all_goals assumption

/-- The phases with the lock. -/
def Phase.locking : Phase → Bool
  | .checking _ _ | .masking _ _ | .creating _ _ _ | .logging _ _ | .loading _ | .leaving _ _ => true
  | .popping _ | .unlogging _ _ | .listing | .clearing _ | .clearingUrls _ | .unlocking _ => true
  | .failing _ => true
  | _ => false

/-- Digest and mask that keep the URL. -/
def plainWorld : World where
  digest := id
  maskUrl := some

end EngineCache

end DjangoBoilerplate
