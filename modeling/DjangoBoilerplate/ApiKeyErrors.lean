import DjangoBoilerplate.ApiKey

/-!
# How API-key authentication fails

`APIKeyAuthentication.authenticate` compares the secret of the row it finds with the header by
`secrets.compare_digest`, which takes ASCII strings only. A header is any Latin-1 string, so
one that begins with the prefix of a key and goes on with another character ends in a
`TypeError`. `declared_iff` says when `authenticate` answers as declared.
-/

namespace DjangoBoilerplate

namespace ApiKey

/-- The key is active and not revoked. -/
def Row.Live (r : Row) : Prop := r.isActive = true ∧ r.revokedAt = none

/-- The key admits who presents this secret: it is stored and live, and its user active. -/
structure Admits (db : Db) (key : Str) (r : Row) : Prop where
  /-- it is stored -/
  mem : r ∈ db.keys
  /-- it is active and not revoked -/
  live : r.Live
  /-- its user is active -/
  user : db.users r.user = true
  /-- and this is its secret -/
  secret : r.secret = key

/-- `authenticate` answers as declared: `None` without a key, the user and the key for the
secret of a key that admits it, and else `AuthenticationFailed`. -/
structure Declared (db : Db) (header : Option Str) : Prop where
  /-- `None` exactly if the header is absent or empty -/
  none_iff : authenticate db header = .ok none ↔ header = none ∨ header = some []
  /-- a user and a key exactly if the header is the secret of a key that admits it -/
  pair_iff : (∃ user r, authenticate db header = .ok (some (user, r))) ↔
    ∃ key r, header = some key ∧ Admits db key r
  /-- and then such a key, with its user -/
  pair : ∀ user r, authenticate db header = .ok (some (user, r)) →
    user = r.user ∧ ∃ key, header = some key ∧ Admits db key r
  /-- no other exception -/
  failed : ∀ e, authenticate db header = .error e → ∃ message, e = .failed message

/-- The header can be compared with the live key it names by its first eight characters. -/
def Comparable (db : Db) (key : Str) : Prop :=
  8 ≤ key.length → ∀ r ∈ db.keys, r.Live → r.keyPrefix = key.take 8 →
    r.secret.isAscii = true ∧ key.isAscii = true

/-- If the header is the secret of a key that admits it, one such key is stored under its first
eight characters. -/
def Findable (db : Db) (key : Str) : Prop :=
  (∃ r, Admits db key r) → 8 ≤ key.length ∧ ∃ r, Admits db key r ∧ r.keyPrefix = key.take 8

variable {db : Db} {key : Str}

/-- Whoever gets in has presented the secret of the key. -/
theorem admits_of_pair {user : ℕ} {r : Row}
    (h : authenticate db (some key) = .ok (some (user, r))) :
    user = r.user ∧ Admits db key r ∧ 8 ≤ key.length ∧ r.keyPrefix = key.take 8 := by
  obtain ⟨hlength, hlookup, rfl, -, hsecret, huser⟩ := authenticate_pair_iff.mp h
  obtain ⟨hmem, hfirst, hactive, hrevoked⟩ := lookup_some hlookup
  exact ⟨rfl, ⟨hmem, ⟨hactive, hrevoked⟩, huser, hsecret⟩, hlength, hfirst⟩

theorem not_typeError_iff
    (hunique : ∀ r ∈ db.keys, ∀ r' ∈ db.keys, r.keyPrefix = r'.keyPrefix → r = r') :
    authenticate db (some key) ≠ .error .typeError ↔ Comparable db key := by
  rw [Ne, authenticate_typeError_iff]
  refine ⟨?_, ?_⟩
  · intro h hlength r hr hlive hfirst
    by_contra hascii
    have hlookup : lookup db.keys r.keyPrefix = some r :=
      lookup_of_unique hr (fun r' hr' => hunique r' hr' r hr) hlive.1 hlive.2
    rw [hfirst] at hlookup
    exact h ⟨hlength, r, hlookup, hascii⟩
  · rintro h ⟨hlength, r, hlookup, hascii⟩
    obtain ⟨hmem, hfirst, hactive, hrevoked⟩ := lookup_some hlookup
    exact hascii (h hlength r hmem ⟨hactive, hrevoked⟩ hfirst)

/-- `authenticate` answers as declared exactly if the header can be compared with the key it
names, and a key it is the secret of can be found. -/
theorem declared_iff
    (hunique : ∀ r ∈ db.keys, ∀ r' ∈ db.keys, r.keyPrefix = r'.keyPrefix → r = r')
    (header : Option Str) :
    Declared db header ↔ ∀ key, header = some key → Comparable db key ∧ Findable db key := by
  refine ⟨?_, ?_⟩
  · rintro h key rfl
    refine ⟨(not_typeError_iff hunique).mp ?_, ?_⟩
    · intro herror
      obtain ⟨message, hmessage⟩ := h.failed _ herror
      cases hmessage
    · rintro ⟨r, hr⟩
      obtain ⟨user, r', hpair⟩ := h.pair_iff.mpr ⟨key, r, rfl, hr⟩
      obtain ⟨-, hadmits, hlength, hfirst⟩ := admits_of_pair hpair
      exact ⟨hlength, r', hadmits, hfirst⟩
  · intro h
    refine ⟨authenticate_none_iff, ⟨?_, ?_⟩, ?_, ?_⟩
    · rintro ⟨user, r, hpair⟩
      rcases header with _ | key
      · cases hpair
      · exact ⟨key, r, rfl, (admits_of_pair hpair).2.1⟩
    · rintro ⟨key, r, rfl, hr⟩
      obtain ⟨hcomparable, hfindable⟩ := h key rfl
      obtain ⟨hlength, r, hr, hfirst⟩ := hfindable ⟨r, hr⟩
      obtain ⟨-, hascii⟩ := hcomparable hlength r hr.mem hr.live hfirst
      have hlookup : lookup db.keys r.keyPrefix = some r :=
        lookup_of_unique hr.mem (fun r' hr' => hunique r' hr' r hr.mem) hr.live.1 hr.live.2
      rw [hfirst] at hlookup
      exact ⟨r.user, r,
        authenticate_pair_iff.mpr ⟨hlength, hlookup, rfl, hascii, hr.secret, hr.user⟩⟩
    · intro user r hpair
      rcases header with _ | key
      · cases hpair
      · obtain ⟨huser, hadmits, -⟩ := admits_of_pair hpair
        exact ⟨huser, key, rfl, hadmits⟩
    · intro e herror
      rcases header with _ | key
      · cases herror
      cases e with
      | failed message => exact ⟨message, rfl⟩
      | typeError => exact absurd herror ((not_typeError_iff hunique).mpr (h key rfl).1)

/-- A live key of the active user 1. -/
def storedKey : Row where
  pk := 1
  user := 1
  name := "ci".toList
  keyPrefix := "abcdefgh".toList
  secret := "abcdefghijkl".toList
  lastUsedAt := none
  revokedAt := none
  isActive := true
  createdBy := none
  updatedBy := none
  createdAt := 0
  updatedAt := 0

/-- Only this key is stored. -/
def oneKey : Db where
  keys := [storedKey]
  users user := user == 1
  nextPk := 2
  debounce _ := false

theorem oneKey_unique :
    ∀ r ∈ oneKey.keys, ∀ r' ∈ oneKey.keys, r.keyPrefix = r'.keyPrefix → r = r' := by
  intro r hr r' hr' _
  rw [List.mem_singleton.mp hr, List.mem_singleton.mp hr']

/-- A header with the prefix of the key and an `é` raises `TypeError`. -/
theorem latin1_header_raises_typeError :
    ¬ ∀ (db : Db) (header : Option Str),
      (∀ r ∈ db.keys, ∀ r' ∈ db.keys, r.keyPrefix = r'.keyPrefix → r = r') →
      (∀ key, header = some key → ∀ c ∈ key, 1 ≤ c.toNat ∧ c.toNat ≤ 255) →
      Declared db header := by
  intro halways
  have hlatin1 : "abcdefgh\xe9".toList.all fun c => decide (1 ≤ c.toNat ∧ c.toNat ≤ 255) := by
    decide
  have hdeclared : Declared oneKey (some "abcdefgh\xe9".toList) := by
    refine halways oneKey _ oneKey_unique ?_
    rintro key ⟨⟩ c hc
    exact of_decide_eq_true (List.all_eq_true.mp hlatin1 c hc)
  have herror : authenticate oneKey (some "abcdefgh\xe9".toList) = .error .typeError := by decide
  obtain ⟨message, hmessage⟩ := hdeclared.failed _ herror
  cases hmessage

/-- The secret of the key gets in as declared. -/
theorem secret_header_declared : Declared oneKey (some "abcdefghijkl".toList) := by
  refine (declared_iff oneKey_unique _).mpr ?_
  rintro key ⟨⟩
  refine ⟨?_, ?_⟩
  · intro _ r hr _ _
    rw [List.mem_singleton.mp hr]
    decide
  · rintro ⟨r, hr⟩
    refine ⟨by decide, r, hr, ?_⟩
    rw [List.mem_singleton.mp hr.mem]
    decide

end ApiKey

end DjangoBoilerplate
