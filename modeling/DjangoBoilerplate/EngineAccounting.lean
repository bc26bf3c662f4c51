import DjangoBoilerplate.EngineCache

/-!
# No engine is lost

`dispose_engine` evaluates the masked URL, which may raise, when the engine is already out of the
cache, and closes the engine later, without the lock. No engine is lost there, for the one reason
that an engine is only ever created for a URL that could be masked; and none is closed twice, since
it leaves the cache under the lock (`engine_accounted`).
-/

namespace DjangoBoilerplate

namespace EngineCache

open Outlines

variable {w : World}

/-- The engines a call has taken out of the cache and is to close. -/
def Phase.pending : Phase → List ℕ
  | .unlogging _ engine => engine.toList
  | .clearingUrls engines | .unlocking engines | .closing engines => engines
  | _ => []

/-- The URLs of the calls are among `urls`, and no `dispose()` raises. -/
def Label.Regular (urls : Set Str) : Label → Prop
  | .getEngine url _ | .disposeEngine url => url ∈ urls
  | .disposeRaises => False
  | _ => True

section Places

variable (m : Memory) (url : Str) (kwargs : Kwargs) (key : Str) {e e' : ℕ} {engines : List ℕ}

theorem place_create_self :
    (m.create key url kwargs).place m.engines.length = .cached key :=
  Function.update_self ..

theorem place_create_of_ne (h : e ≠ m.engines.length) :
    (m.create key url kwargs).place e = m.place e :=
  Function.update_of_ne h ..

theorem place_put_of_mem (h : e ∈ engines) (place : Place) :
    (m.put engines place).place e = place :=
  if_pos h

theorem place_put_of_not_mem (h : e ∉ engines) (place : Place) :
    (m.put engines place).place e = m.place e :=
  if_neg h

theorem place_dispose_self : (m.dispose e).place e = .disposed := Function.update_self ..

theorem place_dispose_of_ne (h : e' ≠ e) : (m.dispose e).place e' = m.place e' :=
  Function.update_of_ne h ..

theorem disposals_dispose_self : (m.dispose e).disposals e = m.disposals e + 1 :=
  Function.update_self ..

theorem disposals_dispose_of_ne (h : e' ≠ e) : (m.dispose e).disposals e' = m.disposals e' :=
  Function.update_of_ne h ..

end Places

section Accounting

variable (w) (urls : Set Str)

/-- The cache, the engines and their places agree. -/
structure Sound (m : Memory) : Prop where
  nodup : (keysOf m.cache).Nodup
  cached : ∀ key e, getItem m.cache key = some e ↔ m.place e = .cached key
  unborn : ∀ e, m.place e = .unborn ↔ m.engines.length ≤ e
  disposals : ∀ e, m.disposals e = if m.place e = .disposed then 1 else 0
  found : ∀ e, m.place e ≠ .lost
  /-- an engine was created for a URL that can be masked -/
  engines : ∀ engine ∈ m.engines, engine.url ∈ urls ∧ (w.maskUrl engine.url).isSome = true
  digest : ∀ {key e engine}, m.place e = .cached key → m.engines[e]? = some engine →
    w.digest engine.url = key

/-- What a call knows of the cache. -/
def Phase.Knows (m : Memory) : Phase → Prop
  | .reading url _ | .waiting url _ | .checking url _ | .disposing url | .popping url => url ∈ urls
  | .masking url _ => url ∈ urls ∧ getItem m.cache (w.digest url) = none
  | .creating url _ masked =>
    url ∈ urls ∧ getItem m.cache (w.digest url) = none ∧ w.maskUrl url = some masked
  | .logging url _ | .loading url => (getItem m.cache (w.digest url)).isSome = true
  | .unlogging url engine => engine.isSome = true → (w.maskUrl url).isSome = true
  | .clearing engines => engines = m.cache.map Prod.snd
  | .failing error | .raised error => error ≠ .key
  | _ => True

/-- The engines a call is to close are those it holds. -/
structure Owns (i : ℕ) (m : Memory) (p : Phase) : Prop where
  nodup : p.pending.Nodup
  held : ∀ e, m.place e = .held i ↔ e ∈ p.pending

end Accounting

section Steps

variable {urls : Set Str} {m : Memory} {i : ℕ}

/-- A new engine. -/
theorem Sound.create (h : Sound w urls m) {url : Str} (kwargs : Kwargs) (hurl : url ∈ urls)
    (hmask : (w.maskUrl url).isSome = true) (hnone : getItem m.cache (w.digest url) = none) :
    Sound w urls (m.create (w.digest url) url kwargs) := by
  have hunborn : m.place m.engines.length = .unborn := (h.unborn _).mpr le_rfl
  refine ⟨nodup_setItem h.nodup _ _, ?_, ?_, ?_, ?_, ?_, ?_⟩
  · intro key e
    rw [Memory.create, getItem_setItem, ← Memory.create]
    rcases eq_or_ne e m.engines.length with rfl | hne
    · rw [place_create_self]
      split
      · next hkey => simp [hkey]
      · next hkey => simp [h.cached, hunborn, Ne.symm hkey]
    · rw [place_create_of_ne m url kwargs _ hne]
      split
      · next hkey => simp [hkey, ← h.cached, hnone, hne.symm]
      · exact h.cached key e
  · intro e
    rw [Memory.create, List.length_append, List.length_singleton, ← Memory.create]
    rcases eq_or_ne e m.engines.length with rfl | hne
    · rw [place_create_self]
      simp
    · rw [place_create_of_ne m url kwargs _ hne, h.unborn]
      omega
  · intro e
    rcases eq_or_ne e m.engines.length with rfl | hne
    · rw [place_create_self]
      exact (h.disposals _).trans (by rw [hunborn]; rfl)
    · rw [place_create_of_ne m url kwargs _ hne]
      exact h.disposals e
  · intro e
    rcases eq_or_ne e m.engines.length with rfl | hne
    · rw [place_create_self]
      exact Place.noConfusion
    · rw [place_create_of_ne m url kwargs _ hne]
      exact h.found e
  · intro engine hmem
    rcases List.mem_append.mp hmem with hold | hnew
    · exact h.engines engine hold
    · rw [List.mem_singleton.mp hnew]
      exact ⟨hurl, hmask⟩
  · intro key e engine hplace hengine
    rw [Memory.create] at hengine
    rcases eq_or_ne e m.engines.length with rfl | hne
    · rw [place_create_self] at hplace
      rw [List.getElem?_concat_length] at hengine
      rw [← Option.some.inj hengine]
      exact Place.cached.inj hplace
    · rw [place_create_of_ne m url kwargs _ hne] at hplace
      have hlt : e < m.engines.length := by
        by_contra hge
        rw [(h.unborn e).mpr (not_lt.mp hge)] at hplace
        cases hplace
      rw [List.getElem?_append_left hlt] at hengine
      exact h.digest hplace hengine

/-- Some engines leave the cache for a call that is to close them. -/
theorem Sound.take (h : Sound w urls m) {cache : List (Str × ℕ)} {engines : List ℕ}
    (hnodup : (keysOf cache).Nodup)
    (hrest : ∀ key e, getItem cache key = some e ↔ getItem m.cache key = some e ∧ e ∉ engines)
    (htaken : ∀ e ∈ engines, ∃ key, m.place e = .cached key) :
    Sound w urls ({ m with cache := cache }.put engines (.held i)) := by
  refine ⟨hnodup, ?_, ?_, ?_, ?_, h.engines, ?_⟩
  · intro key e
    refine (hrest key e).trans ?_
    by_cases hmem : e ∈ engines
    · rw [place_put_of_mem _ hmem]
      simp [hmem]
    · rw [place_put_of_not_mem _ hmem, h.cached]
      simp [hmem]
  · intro e
    by_cases hmem : e ∈ engines
    · obtain ⟨key, hplace⟩ := htaken e hmem
      rw [place_put_of_mem _ hmem]
      exact Iff.trans (by simp [hplace]) (h.unborn e)
    · rw [place_put_of_not_mem _ hmem]
      exact h.unborn e
  · intro e
    by_cases hmem : e ∈ engines
    · obtain ⟨key, hplace⟩ := htaken e hmem
      rw [place_put_of_mem _ hmem]
      exact (h.disposals e).trans (by rw [hplace]; rfl)
    · rw [place_put_of_not_mem _ hmem]
      exact h.disposals e
  · intro e
    by_cases hmem : e ∈ engines
    · rw [place_put_of_mem _ hmem]
      exact Place.noConfusion
    · rw [place_put_of_not_mem _ hmem]
      exact h.found e
  · intro key e engine hplace
    by_cases hmem : e ∈ engines
    · rw [place_put_of_mem _ hmem] at hplace
      cases hplace
    · rw [place_put_of_not_mem _ hmem] at hplace
      exact h.digest hplace

/-- A call closes an engine it holds. -/
theorem Sound.dispose (h : Sound w urls m) {e : ℕ} (hheld : m.place e = .held i) :
    Sound w urls (m.dispose e) := by
  refine ⟨h.nodup, ?_, ?_, ?_, ?_, h.engines, ?_⟩
  · intro key e'
    rcases eq_or_ne e' e with rfl | hne
    · rw [place_dispose_self]
      exact (h.cached key e').trans (by simp [hheld])
    · rw [place_dispose_of_ne m hne]
      exact h.cached key e'
  · intro e'
    rcases eq_or_ne e' e with rfl | hne
    · rw [place_dispose_self]
      exact Iff.trans (by simp [hheld]) (h.unborn e')
    · rw [place_dispose_of_ne m hne]
      exact h.unborn e'
  · intro e'
    rcases eq_or_ne e' e with rfl | hne
    · rw [place_dispose_self, disposals_dispose_self, h.disposals, hheld]
      rfl
    · rw [place_dispose_of_ne m hne, disposals_dispose_of_ne m hne]
      exact h.disposals e'
  · intro e'
    rcases eq_or_ne e' e with rfl | hne
    · rw [place_dispose_self]
      exact Place.noConfusion
    · rw [place_dispose_of_ne m hne]
      exact h.found e'
  · intro key e' engine hplace
    rcases eq_or_ne e' e with rfl | hne
    · rw [place_dispose_self] at hplace
      cases hplace
    · rw [place_dispose_of_ne m hne] at hplace
      exact h.digest hplace

/-- What a call takes out of the cache is in no other place of it. -/
theorem Sound.pop (h : Sound w urls m) (key : Str) :
    Sound w urls ({ m with cache := popItem m.cache key }.put (getItem m.cache key).toList
      (.held i)) := by
  refine h.take (nodup_popItem h.nodup key) ?_ ?_
  · intro key' e
    rw [getItem_popItem, Option.mem_toList]
    split
    · next heq =>
      rw [heq]
      simp
    · next hne =>
      refine ⟨?_, And.left⟩
      intro he
      refine ⟨he, ?_⟩
      intro he'
      have heq := ((h.cached key' e).mp he).symm.trans ((h.cached key e).mp he')
      exact hne (Place.cached.inj heq)
  · intro e hmem
    exact ⟨key, (h.cached key e).mp (Option.mem_toList.mp hmem)⟩

/-- Every engine is in the cache once. -/
theorem Sound.nodup_values (h : Sound w urls m) : (m.cache.map Prod.snd).Nodup := by
  refine List.Nodup.map_on ?_ (List.Nodup.of_map _ h.nodup)
  rintro ⟨key, e⟩ hx ⟨key', e'⟩ hy heq
  obtain rfl : e = e' := heq
  have hplace := (h.cached key e).mp (getItem_of_mem h.nodup hx)
  have hplace' := (h.cached key' e).mp (getItem_of_mem h.nodup hy)
  rw [Place.cached.inj (hplace.symm.trans hplace')]

theorem Sound.mem_values_iff (h : Sound w urls m) {e : ℕ} :
    e ∈ m.cache.map Prod.snd ↔ ∃ key, m.place e = .cached key := by
  rw [List.mem_map]
  constructor
  · rintro ⟨⟨key, e'⟩, hmem, rfl⟩
    exact ⟨key, (h.cached key e').mp (getItem_of_mem h.nodup hmem)⟩
  · rintro ⟨key, hplace⟩
    exact ⟨(key, e), mem_of_getItem ((h.cached key e).mpr hplace), rfl⟩

theorem Sound.clear (h : Sound w urls m) :
    Sound w urls ({ m with cache := [] }.put (m.cache.map Prod.snd) (.held i)) := by
  refine h.take List.nodup_nil ?_ fun e hmem => h.mem_values_iff.mp hmem
  intro key e
  have hvalues : getItem m.cache key = some e → e ∈ m.cache.map Prod.snd := fun hget =>
    h.mem_values_iff.mpr ⟨key, (h.cached key e).mp hget⟩
  simpa [getItem] using hvalues

/-- Engines that go from the cache to a call. -/
theorem Owns.take {p p' : Phase} {cache : List (Str × ℕ)} {engines : List ℕ} (h : Owns i m p)
    (hnone : p.pending = []) (hpending : p'.pending = engines) (hnodup : engines.Nodup) :
    Owns i ({ m with cache := cache }.put engines (.held i)) p' := by
  refine ⟨hpending ▸ hnodup, ?_⟩
  intro e
  rw [hpending]
  by_cases hmem : e ∈ engines
  · rw [place_put_of_mem _ hmem]
    simp [hmem]
  · rw [place_put_of_not_mem _ hmem]
    have hheld := h.held e
    rw [hnone] at hheld
    simpa [hmem] using hheld

/-- The other calls hold what they held. -/
def Undisturbed (i : ℕ) (m m' : Memory) : Prop :=
  ∀ j, j ≠ i → ∀ e, m'.place e = .held j ↔ m.place e = .held j

theorem undisturbed_take {cache : List (Str × ℕ)} {engines : List ℕ}
    (htaken : ∀ e ∈ engines, ∃ key, m.place e = .cached key) :
    Undisturbed i m ({ m with cache := cache }.put engines (.held i)) := by
  intro j hne e
  by_cases hmem : e ∈ engines
  · obtain ⟨key, hplace⟩ := htaken e hmem
    rw [place_put_of_mem _ hmem, hplace]
    simp [hne.symm]
  · rw [place_put_of_not_mem _ hmem]

theorem put_nil (m : Memory) (place : Place) : m.put [] place = m := by
  simp [Memory.put]

theorem Sound.of_log (h : Sound w urls m) (urlForLog : List (Str × Str)) :
    Sound w urls { m with urlForLog := urlForLog } :=
  ⟨h.nodup, h.cached, h.unborn, h.disposals, h.found, h.engines, h.digest⟩

theorem Owns.of_pending {m' : Memory} {p p' : Phase} (h : Owns i m p)
    (hpending : p'.pending = p.pending) (hplace : m'.place = m.place) : Owns i m' p' := by
  refine ⟨hpending ▸ h.nodup, ?_⟩
  intro e
  rw [hplace, hpending]
  exact h.held e

/-- The engine that a call finds under its URL was created for this URL. -/
theorem Sound.mask_isSome (h : Sound w urls m) (hinj : Set.InjOn w.digest urls) {url : Str}
    (hurl : url ∈ urls) {e : ℕ} (hget : getItem m.cache (w.digest url) = some e) :
    (w.maskUrl url).isSome = true := by
  have hplace := (h.cached _ e).mp hget
  have hlt : e < m.engines.length := by
    by_contra hge
    rw [(h.unborn e).mpr (not_lt.mp hge)] at hplace
    cases hplace
  have hengine : m.engines[e]? = some m.engines[e] := List.getElem?_eq_getElem hlt
  obtain ⟨hmem, hmask⟩ := h.engines _ (List.getElem_mem hlt)
  rw [hinj hmem hurl (h.digest hplace hengine)] at hmask
  exact hmask

/-- What a step without a change of the lock keeps. -/
structure Kept (w : World) (urls : Set Str) (i : ℕ) (m m' : Memory) (p p' : Phase) : Prop where
  locking : p'.locking = p.locking
  sound : Sound w urls m'
  owns : Owns i m' p'
  knows : p'.Knows w urls m'
  undisturbed : Undisturbed i m m'

/-- A step that leaves the cache and the engines alone. -/
theorem Sound.kept (h : Sound w urls m) {p p' : Phase} (howns : Owns i m p)
    (hlocking : p'.locking = p.locking) (hpending : p'.pending = p.pending)
    (hknows : p'.Knows w urls m) : Kept w urls i m m p p' :=
  ⟨hlocking, h, howns.of_pending hpending rfl, hknows, fun _ _ _ => Iff.rfl⟩

theorem kept_of_go (hinj : Set.InjOn w.digest urls) {p p' : Phase} {l : Label} {m' : Memory}
    (hguard : l.Regular urls) (hsound : Sound w urls m) (howns : Owns i m p)
    (hknows : p.Knows w urls m) (hmove : Moves w i m p l (.go m' p')) :
    Kept w urls i m m' p p' := by
  cases hmove with
  | callGet | callDispose => exact hsound.kept howns rfl rfl hguard
  | callDisposeAll | hit | closeDone | load => exact hsound.kept howns rfl rfl trivial
  | miss => exact hsound.kept howns rfl rfl hknows
  | present h => exact hsound.kept howns rfl rfl h
  | absent h => exact hsound.kept howns rfl rfl ⟨hknows, h⟩
  | mask h =>
    obtain ⟨hurl, hnone⟩ := hknows
    exact hsound.kept howns rfl rfl ⟨hurl, hnone, h⟩
  | maskRaises | createRaises => exact hsound.kept howns rfl rfl Error.noConfusion
  | @create url kwargs masked =>
    obtain ⟨hurl, hnone, hmask⟩ := hknows
    have hunborn : m.place m.engines.length = .unborn := (hsound.unborn _).mpr le_rfl
    have hplace : ∀ j e, (m.create (w.digest url) url kwargs).place e = .held j ↔
        m.place e = .held j := by
      intro j e
      rcases eq_or_ne e m.engines.length with rfl | hne
      · rw [place_create_self, hunborn]
        simp
      · rw [place_create_of_ne m url kwargs _ hne]
    refine ⟨rfl, hsound.create kwargs hurl (by rw [hmask]; rfl) hnone, ?_, ?_, ?_⟩
    · exact ⟨howns.nodup, fun e => (hplace i e).trans (howns.held e)⟩
    · simp [Phase.Knows, Memory.create, getItem_setItem]
    · exact fun j _ e => hplace j e
  | log =>
    exact ⟨rfl, hsound.of_log _, howns.of_pending rfl rfl, hknows, fun _ _ _ => Iff.rfl⟩
  | loadRaises h =>
    rw [Phase.Knows, h] at hknows
    cases hknows
  | @pop url =>
    refine ⟨rfl, hsound.pop _, howns.take rfl rfl ?_, ?_, ?_⟩
    · cases getItem m.cache (w.digest url) <;> simp
    · intro hsome
      obtain ⟨e, hget⟩ := Option.isSome_iff_exists.mp hsome
      exact hsound.mask_isSome hinj hknows hget
    · refine undisturbed_take fun e hmem => ?_
      exact ⟨_, (hsound.cached _ e).mp (Option.mem_toList.mp hmem)⟩
  | unlog =>
    exact ⟨rfl, hsound.of_log _, howns.of_pending rfl rfl, trivial, fun _ _ _ => Iff.rfl⟩
  | @unlogRaises url engine h =>
    -- the URL cannot be masked, so there was no engine
    have hnone : engine = none := by
      rw [Phase.Knows, h] at hknows
      cases engine with
      | none => rfl
      | some e => cases hknows rfl
    subst hnone
    rw [Option.toList_none, put_nil]
    exact hsound.kept howns rfl rfl Error.noConfusion
  | list => exact hsound.kept howns rfl rfl rfl
  | clear =>
    rw [Phase.Knows] at hknows
    subst hknows
    refine ⟨rfl, hsound.clear, howns.take rfl rfl hsound.nodup_values, trivial, ?_⟩
    exact undisturbed_take fun e hmem => hsound.mem_values_iff.mp hmem
  | clearUrls =>
    exact ⟨rfl, hsound.of_log _, howns.of_pending rfl rfl, trivial, fun _ _ _ => Iff.rfl⟩
  | @close engine engines =>
    have hheld : m.place engine = .held i := (howns.held engine).mpr List.mem_cons_self
    obtain ⟨hnot, hnodup⟩ := List.nodup_cons.mp howns.nodup
    refine ⟨rfl, hsound.dispose hheld, ⟨hnodup, ?_⟩, trivial, ?_⟩
    · intro e
      rcases eq_or_ne e engine with rfl | hne
      · rw [place_dispose_self]
        exact iff_of_false Place.noConfusion hnot
      · rw [place_dispose_of_ne m hne]
        refine (howns.held e).trans ?_
        simp [Phase.pending, hne]
    · intro j hne e
      rcases eq_or_ne e engine with rfl | hne'
      · rw [place_dispose_self, hheld]
        simp [hne.symm]
      · rw [place_dispose_of_ne m hne']
  | closeRaises => exact hguard.elim

/-- Only a call with the lock changes the cache. -/
theorem cache_of_not_locking {p p' : Phase} {l : Label} {m' : Memory}
    (hmove : Moves w i m p l (.go m' p')) (hlocking : p.locking = false) : m'.cache = m.cache := by
  cases hmove with
  | create | pop | clear => cases hlocking
  | _ => rfl

/-- What a call knows is about the cache, and without the lock not even that. -/
theorem Phase.Knows.of_cache {m m' : Memory} {p : Phase} (h : p.Knows w urls m)
    (hcache : p.locking = false ∨ m'.cache = m.cache) : p.Knows w urls m' := by
  rcases hcache with hlocking | hcache
  · cases p <;> first | exact h | cases hlocking
  · have heq : p.Knows w urls m' = p.Knows w urls m := by
      cases p <;> simp only [Phase.Knows, hcache]
    rw [heq]
    exact h

theorem Owns.of_undisturbed {m m' : Memory} {j : ℕ} {p : Phase} (h : Owns j m p) (hne : j ≠ i)
    (hundisturbed : Undisturbed i m m') : Owns j m' p :=
  ⟨h.nodup, fun e => (hundisturbed j hne e).trans (h.held e)⟩

end Steps

/-- The proof outline. -/
def accounting {urls : Set Str} (hinj : Set.InjOn w.digest urls) :
    Outline (program w) (Label.Regular urls) where
  locking := Phase.locking
  inv := Sound w urls
  free := fun _ => True
  holds := fun i m p => Owns i m p ∧ p.Knows w urls m
  go := by
    rintro i m p l m' p' hguard hsound ⟨howns, hknows⟩ hnext
    have hkept := kept_of_go hinj hguard hsound howns hknows (moves_of_next hnext)
    exact ⟨hkept.locking, hkept.sound, ⟨hkept.owns, hkept.knows⟩, fun _ _ => trivial⟩
  go_others := by
    rintro i j m p q l m' p' hguard hne hsound ⟨howns, hknows⟩ hnext hlocking ⟨hq, hknowsq⟩
    have hmove := moves_of_next hnext
    have hkept := kept_of_go hinj hguard hsound howns hknows hmove
    refine ⟨hq.of_undisturbed hne hkept.undisturbed, hknowsq.of_cache ?_⟩
    cases hp : p.locking with
    | true => exact .inl (hlocking hp)
    | false => exact .inr (cache_of_not_locking hmove hp)
  acquire := by
    rintro i m p l p' hguard hsound - ⟨howns, hknows⟩ hnext
    cases moves_of_next hnext with
    | lock | lockDispose => exact ⟨rfl, howns.of_pending rfl rfl, hknows⟩
    | lockAll => exact ⟨rfl, howns.of_pending rfl rfl, trivial⟩
  release := by
    rintro i m p l m' p' hguard hsound ⟨howns, hknows⟩ hnext
    cases moves_of_next hnext with
    | leave | unlock => exact ⟨rfl, rfl, hsound, trivial, howns.of_pending rfl rfl, trivial⟩
    | fail => exact ⟨rfl, rfl, hsound, trivial, howns.of_pending rfl rfl, hknows⟩
  release_others := by
    rintro i j m p q l m' p' hguard hne hsound - hnext - hq
    cases moves_of_next hnext with
    | leave | unlock | fail => exact hq

/-- The outline is true before the first call. -/
theorem accounting_init {urls : Set Str} (hinj : Set.InjOn w.digest urls) :
    (accounting hinj).Valid (State.init .empty .idle) := by
  refine Outline.valid_init ?_ trivial rfl ?_
  · exact
      { nodup := List.nodup_nil
        cached := fun _ _ => by simp [Memory.empty, getItem]
        unborn := fun _ => by simp [Memory.empty]
        disposals := fun _ => rfl
        found := fun _ => Place.noConfusion
        engines := fun _ hmem => by cases hmem
        digest := fun hplace => by cases hplace }
  · intro i
    refine ⟨⟨List.nodup_nil, ?_⟩, trivial⟩
    intro e
    exact iff_of_false Place.noConfusion List.not_mem_nil

/-- An engine is in one place. -/
structure Accounted (s : State Memory Phase) (e : ℕ) : Prop where
  /-- it is cached, taken out by a call that is to close it, or closed -/
  somewhere : (∃ key, getItem s.memory.cache key = some e) ∨ (∃ i, e ∈ (s.phase i).pending) ∨
    s.memory.disposals e = 1
  /-- under one key, -/
  key : ∀ {key key'}, getItem s.memory.cache key = some e → getItem s.memory.cache key' = some e →
    key = key'
  /-- by one call, -/
  call : ∀ {i j}, e ∈ (s.phase i).pending → e ∈ (s.phase j).pending → i = j
  /-- and only one of these -/
  cached : ∀ {key}, getItem s.memory.cache key = some e →
    (∀ i, e ∉ (s.phase i).pending) ∧ s.memory.disposals e = 0
  pending : ∀ {i}, e ∈ (s.phase i).pending → s.memory.disposals e = 0
  /-- it is not closed twice -/
  once : s.memory.disposals e ≤ 1

/-- However the calls interleave, also when URLs cannot be masked or `create_engine` raises, as long
as no `dispose()` does: no engine is lost and none is closed twice, and no lookup fails because its
engine was disposed of under its hands. -/
theorem engine_accounted {urls : Set Str} (hinj : Set.InjOn w.digest urls)
    {ls : List (ℕ × Label)} (hls : ∀ l ∈ ls, l.2.Regular urls) {s : State Memory Phase}
    (hrun : (program w).machine.run (State.init .empty .idle) ls = some s) :
    (∀ e < s.memory.engines.length, Accounted s e) ∧ ∀ i, s.phase i ≠ .raised .key := by
  have hvalid := Outline.valid_of_run (accounting_init hinj) hls hrun
  have hsound : Sound w urls s.memory := hvalid.inv
  have hheld : ∀ i e, s.memory.place e = .held i ↔ e ∈ (s.phase i).pending :=
    fun i => (hvalid.holds i).1.held
  refine ⟨?_, ?_⟩
  · intro e he
    refine ⟨?_, ?_, ?_, ?_, ?_, ?_⟩
    · cases hplace : s.memory.place e with
      | unborn => exact absurd ((hsound.unborn e).mp hplace) (not_le.mpr he)
      | cached key => exact .inl ⟨key, (hsound.cached key e).mpr hplace⟩
      | held i => exact .inr (.inl ⟨i, (hheld i e).mp hplace⟩)
      | disposed => exact .inr (.inr (by rw [hsound.disposals, hplace]; rfl))
      | lost => exact absurd hplace (hsound.found e)
    · intro key key' hget hget'
      have hplace := (hsound.cached key e).mp hget
      exact Place.cached.inj (hplace.symm.trans ((hsound.cached key' e).mp hget'))
    · intro i j hi hj
      exact Place.held.inj (((hheld i e).mpr hi).symm.trans ((hheld j e).mpr hj))
    · intro key hget
      have hplace := (hsound.cached key e).mp hget
      refine ⟨?_, by rw [hsound.disposals, hplace]; rfl⟩
      intro i hi
      cases hplace.symm.trans ((hheld i e).mpr hi)
    · intro i hi
      rw [hsound.disposals, (hheld i e).mpr hi]
      rfl
    · rw [hsound.disposals]
      split
      · exact le_rfl
      · exact Nat.zero_le 1
  · intro i hphase
    have hknows := (hvalid.holds i).2
    rw [hphase] at hknows
    exact hknows rfl

/-- Two lookups find nothing, one of them creates the engine, and a disposal closes it. -/
def twoLookups : List (ℕ × Label) :=
  [(0, .getEngine "a".toList []), (1, .getEngine "a".toList []), (0, .advance), (1, .advance)] ++
    List.replicate 7 (0, .advance) ++ List.replicate 4 (1, .advance) ++
    [(2, .disposeEngine "a".toList)] ++ List.replicate 6 (2, .advance)

theorem engine_accounted_twoLookups :
    ∃ s, (program plainWorld).machine.run (State.init .empty .idle) twoLookups = some s ∧
      (∀ e < s.memory.engines.length, Accounted s e) ∧ ∀ i, s.phase i ≠ .raised .key := by
  have hinj : Set.InjOn plainWorld.digest Set.univ := fun _ _ _ _ h => h
  have hls : ∀ l ∈ twoLookups, l.2.Regular Set.univ := by
    simp [twoLookups, Label.Regular]
  exact ⟨_, rfl, engine_accounted hinj hls rfl⟩

end EngineCache

end DjangoBoilerplate
