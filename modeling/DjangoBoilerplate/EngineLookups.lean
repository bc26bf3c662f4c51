import DjangoBoilerplate.EngineCache

/-!
# One engine for a URL

As long as no engine is disposed of, the lookups that miss the cache at the same time still end up
with the same engine: the first one to have the lock creates it, and the others find it when they
look again (`lookups_share_engine`).
-/

namespace DjangoBoilerplate

namespace EngineCache

open Outlines

variable {w : World}

/-- A step of a lookup. -/
def Label.isLookup : Label → Bool
  | .getEngine _ _ | .advance | .createRaises => true
  | _ => false

/-- A step of a lookup, with arguments among `calls`. -/
def Label.Lookup (calls : Set (Str × Kwargs)) : Label → Prop
  | .getEngine url kwargs => (url, kwargs) ∈ calls
  | .advance | .createRaises => True
  | _ => False

section Lookups

variable (w) (calls : Set (Str × Kwargs))

/-- Every engine is cached under the digest of its URL, and was made by one of the calls. -/
structure Complete (m : Memory) : Prop where
  cached : ∀ key e, getItem m.cache key = some e ↔
    ∃ engine, m.engines[e]? = some engine ∧ w.digest engine.url = key
  made : ∀ engine ∈ m.engines, ∃ kwargs, (engine.url, kwargs) ∈ calls ∧
    engine.options = options kwargs

/-- What a lookup knows of the cache. -/
def Phase.Sees (m : Memory) : Phase → Prop
  | .idle => True
  | .reading url kwargs | .waiting url kwargs | .checking url kwargs => (url, kwargs) ∈ calls
  | .masking url kwargs | .creating url kwargs _ =>
    (url, kwargs) ∈ calls ∧ getItem m.cache (w.digest url) = none
  | .logging url _ | .loading url => (getItem m.cache (w.digest url)).isSome = true
  | .leaving url engine | .got url engine => getItem m.cache (w.digest url) = some engine
  | .failing _ | .raised _ => True
  | _ => False

variable {w calls} {m : Memory}

theorem Complete.create (h : Complete w calls m) {url : Str} {kwargs : Kwargs}
    (hcall : (url, kwargs) ∈ calls) (hnone : getItem m.cache (w.digest url) = none) :
    Complete w calls (m.create (w.digest url) url kwargs) := by
  refine ⟨?_, ?_⟩
  · intro key e
    rw [Memory.create, getItem_setItem]
    rcases lt_trichotomy e m.engines.length with hlt | rfl | hgt
    · rw [List.getElem?_append_left hlt, ← h.cached]
      split
      · next hkey => simp [hkey, hnone, hlt.ne']
      · rfl
    · rw [List.getElem?_concat_length]
      split
      · next hkey => simp [hkey]
      · next hkey => simp [h.cached, Ne.symm hkey]
    · have hnew : (m.engines ++ [⟨url, options kwargs⟩])[e]? = none :=
        List.getElem?_eq_none (by simp; omega)
      rw [hnew]
      split
      · simp [hgt.ne]
      · simp [h.cached, List.getElem?_eq_none hgt.le]
  · intro engine hmem
    rcases List.mem_append.mp hmem with hold | hnew
    · exact h.made engine hold
    · rw [List.mem_singleton.mp hnew]
      exact ⟨kwargs, hcall, rfl⟩

/-- What was in the cache stays there when an engine is added. -/
theorem getItem_create {url key : Str} {kwargs : Kwargs} {e : ℕ}
    (hnone : getItem m.cache (w.digest url) = none) (hget : getItem m.cache key = some e) :
    getItem (m.create (w.digest url) url kwargs).cache key = some e := by
  rw [Memory.create, getItem_setItem, if_neg, hget]
  rintro rfl
  rw [hnone] at hget
  cases hget

end Lookups

/-- The proof outline of the lookups. -/
def lookups (calls : Set (Str × Kwargs)) : Outline (program w) (Label.Lookup calls) where
  locking := Phase.locking
  inv := Complete w calls
  free := fun _ => True
  holds := fun _ m p => p.Sees w calls m
  go := by
    intro i m p l m' p' hguard hcomplete hsees hnext
    cases moves_of_next hnext with
    | callGet => exact ⟨rfl, hcomplete, hguard, fun _ _ => trivial⟩
    | callDispose | callDisposeAll => exact hguard.elim
    | hit h => exact ⟨rfl, hcomplete, h, fun _ _ => trivial⟩
    | miss => exact ⟨rfl, hcomplete, hsees, fun _ _ => trivial⟩
    | present h => exact ⟨rfl, hcomplete, h, fun _ _ => trivial⟩
    | absent h => exact ⟨rfl, hcomplete, ⟨hsees, h⟩, fun _ _ => trivial⟩
    | mask h => exact ⟨rfl, hcomplete, hsees, fun _ _ => trivial⟩
    | maskRaises | createRaises => exact ⟨rfl, hcomplete, trivial, fun _ _ => trivial⟩
    | create =>
      obtain ⟨hcall, hnone⟩ := hsees
      refine ⟨rfl, hcomplete.create hcall hnone, ?_, fun _ _ => trivial⟩
      simp [Phase.Sees, Memory.create, getItem_setItem]
    | log => exact ⟨rfl, ⟨hcomplete.cached, hcomplete.made⟩, hsees, fun _ _ => trivial⟩
    | load h => exact ⟨rfl, hcomplete, h, fun _ _ => trivial⟩
    | loadRaises => exact ⟨rfl, hcomplete, trivial, fun _ _ => trivial⟩
    | pop | unlog | unlogRaises | list | clear | clearUrls | closeDone | close | closeRaises =>
      exact hsees.elim
  go_others := by
    intro i j m p q l m' p' hguard hne hcomplete hsees hnext hlocking hq
    cases moves_of_next hnext with
    | create =>
      -- the other one does not have the lock, so all it knows is what it has returned
      have hfree := hlocking rfl
      cases q with
      | got url engine => exact getItem_create hsees.2 hq
      | masking | creating | logging | loading | leaving => cases hfree
      | _ => exact hq
    | pop | unlog | unlogRaises | list | clear | clearUrls | closeDone | close | closeRaises =>
      exact hsees.elim
    | _ => exact hq
  acquire := by
    intro i m p l p' hguard hcomplete _ hsees hnext
    cases moves_of_next hnext with
    | lock => exact ⟨rfl, hsees⟩
    | lockDispose | lockAll => exact hsees.elim
  release := by
    intro i m p l m' p' hguard hcomplete hsees hnext
    cases moves_of_next hnext with
    | leave => exact ⟨rfl, rfl, hcomplete, trivial, hsees⟩
    | fail => exact ⟨rfl, rfl, hcomplete, trivial, trivial⟩
    | unlock => exact hsees.elim
  release_others := by
    intro i j m p q l m' p' hguard hne hcomplete hsees hnext _ hq
    cases moves_of_next hnext with
    | leave | unlock | fail => exact hq

/-- However lookups interleave, those for one URL return one engine, and those for URLs with
different digests different ones; it was made for a URL with this digest, with the options of one of
the calls. There is one engine for a digest. -/
theorem lookups_share_engine {ls : List (ℕ × Label)} (hls : ∀ l ∈ ls, l.2.isLookup = true)
    {s : State Memory Phase}
    (hrun : (program w).machine.run (State.init .empty .idle) ls = some s) :
    (∀ {i j url url' e e'}, s.phase i = .got url e → s.phase j = .got url' e' →
        (e = e' ↔ w.digest url = w.digest url')) ∧
      (∀ {i url e}, s.phase i = .got url e →
        ∃ engine kwargs j, s.memory.engines[e]? = some engine ∧
          w.digest engine.url = w.digest url ∧ (j, Label.getEngine engine.url kwargs) ∈ ls ∧
          engine.options = options kwargs) ∧
      (s.memory.engines.map fun engine => w.digest engine.url).Nodup := by
  have hguard : ∀ l ∈ ls, l.2.Lookup {call | ∃ i, (i, Label.getEngine call.1 call.2) ∈ ls} := by
    rintro ⟨i, l⟩ hmem
    cases l with
    | getEngine url kwargs => exact ⟨i, hmem⟩
    | advance | createRaises => trivial
    | disposeEngine | disposeAllEngines | disposeRaises => cases hls _ hmem
  have hinit : (lookups (w := w) {call | ∃ i, (i, Label.getEngine call.1 call.2) ∈ ls}).Valid
      (State.init .empty .idle) := by
    refine Outline.valid_init ⟨?_, ?_⟩ trivial rfl fun _ => trivial
    · intro key e
      simp [Memory.empty, getItem]
    · intro engine hmem
      cases hmem
  have hvalid := Outline.valid_of_run hinit hguard hrun
  have hcomplete : Complete w _ s.memory := hvalid.inv
  have hgot : ∀ {i url e}, s.phase i = .got url e →
      getItem s.memory.cache (w.digest url) = some e := by
    intro i url e hphase
    have hsees := hvalid.holds i
    rw [hphase] at hsees
    exact hsees
  refine ⟨?_, ?_, ?_⟩
  · intro i j url url' e e' hi hj
    constructor
    · rintro rfl
      obtain ⟨engine, hengine, hkey⟩ := (hcomplete.cached _ e).mp (hgot hi)
      obtain ⟨engine', hengine', hkey'⟩ := (hcomplete.cached _ e).mp (hgot hj)
      obtain rfl := Option.some.inj (hengine.symm.trans hengine')
      exact hkey.symm.trans hkey'
    · intro hkey
      have hget := hgot hi
      rw [hkey, hgot hj] at hget
      exact (Option.some.inj hget).symm
  · intro i url e hi
    obtain ⟨engine, hengine, hkey⟩ := (hcomplete.cached _ e).mp (hgot hi)
    obtain ⟨kwargs, ⟨j, hcall⟩, hoptions⟩ :=
      hcomplete.made engine (List.mem_of_getElem? hengine)
    exact ⟨engine, kwargs, j, hengine, hkey, hcall, hoptions⟩
  · rw [List.nodup_iff_getElem?_ne_getElem?]
    intro e e' hlt hlt' heq
    rw [List.length_map] at hlt'
    have hengine := List.getElem?_eq_getElem (hlt.trans hlt')
    have hengine' := List.getElem?_eq_getElem hlt'
    rw [List.getElem?_map, List.getElem?_map, hengine, hengine'] at heq
    have hget := (hcomplete.cached _ e).mpr ⟨_, hengine, rfl⟩
    have hget' := (hcomplete.cached _ e').mpr ⟨_, hengine', rfl⟩
    have hdigest : w.digest s.memory.engines[e].url = w.digest s.memory.engines[e'].url :=
      Option.some.inj heq
    rw [hdigest, hget'] at hget
    exact hlt.ne' (Option.some.inj hget)

/-- Two lookups find nothing, and one of them creates the engine. -/
def race : List (ℕ × Label) :=
  [(0, .getEngine "a".toList []), (1, .getEngine "a".toList []), (0, .advance), (1, .advance)] ++
    List.replicate 7 (0, .advance) ++ List.replicate 4 (1, .advance)

theorem lookups_share_engine_race :
    ∃ s, (program plainWorld).machine.run (State.init .empty .idle) race = some s ∧
      s.phase 0 = .got "a".toList 0 ∧ s.phase 1 = .got "a".toList 0 ∧
      (s.memory.engines.map fun engine => plainWorld.digest engine.url).Nodup := by
  have hls : ∀ l ∈ race, l.2.isLookup = true := by
    simp [race, Label.isLookup]
  exact ⟨_, rfl, rfl, rfl, (lookups_share_engine hls rfl).2.2⟩

end EngineCache

end DjangoBoilerplate
