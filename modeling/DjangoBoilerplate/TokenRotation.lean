import DjangoBoilerplate.Machine

/-!
# Refresh-token rotation and logout

`token_refresh` and `logout` of `apps/accounts/views.py`, as a machine over any
number of requests. A request is a few database round trips with arbitrary
interleaving in between: construct the `RefreshToken` (which verifies signature,
expiry and blacklist), load the user or compare the owner, call `blacklist()`,
and — for a refresh — mint the new pair.

The code orders these steps so that a *failing* blacklist write cannot leave two
valid tokens behind. It does not look at whether `blacklist()` — a get-or-create
— created the entry or found it: two requests that both pass the check before
either has blacklisted the token both go on (`two_refreshes_both_mint`).

`single_use_of_firstToBlacklist` is the positive half: in the runs in which a
refresh always finds the token not yet blacklisted when it blacklists it, and a
logout never blacklists between a refresh's blacklisting and its mint, a refresh
token is single use.
-/

namespace DjangoBoilerplate

namespace TokenRotation

universe u

/-- The exceptions `int(token["user_id"])` can end in. -/
inductive ClaimError : Type where
  /-- the claim is missing -/
  | keyError
  /-- the claim is a string that is no integer, or the `float` that is no number -/
  | valueError
  /-- the claim is of a type `int()` does not take -/
  | typeError
  /-- the claim is an infinite `float` -/
  | overflowError
  deriving DecidableEq

/-- What the code outside the repository says about a token string: simplejwt's
verification apart from expiry and blacklist, and the payload's claim. -/
structure Jwt (T : Type u) : Type u where
  /-- does the signature (and the token type) verify? -/
  verifies : T → Bool
  /-- `int(token["user_id"])` -/
  userId : T → Except ClaimError ℤ

/-- One request, with the truthy value under `"refresh"` if there is one. -/
inductive Request (T : Type u) : Type u where
  /-- `POST token/refresh/` -/
  | refresh : Option T → Request T
  /-- `POST logout/` by the given authenticated user -/
  | logout : ℤ → Option T → Request T

/-- The token a request carries. -/
def Request.token {T : Type u} : Request T → Option T
  | .refresh t => t
  | .logout _ t => t

/-- Is it a `token_refresh` request? -/
def Request.isRefresh {T : Type u} : Request T → Bool
  | .refresh _ => true
  | .logout _ _ => false

/-- How a request ends. -/
inductive Response : Type where
  /-- `SuccessResponse` with a new `access` and `refresh` token -/
  | minted : Response
  /-- `SuccessResponse` with a message -/
  | success : String → Response
  /-- `ErrorResponse` with its status code and message -/
  | error : ℕ → String → Response
  /-- an exception escapes the view -/
  | raised : ClaimError → Response
  deriving DecidableEq

/-- Where a request is. -/
inductive Phase : Type where
  /-- nothing done yet -/
  | start : Phase
  /-- `RefreshToken(...)` has returned -/
  | constructed : Phase
  /-- the user is active, or the owner matches; about to call `blacklist()` -/
  | checked : Phase
  /-- a refresh past `blacklist()`, about to mint -/
  | blacklisted : Phase
  /-- answered -/
  | done : Response → Phase
  deriving DecidableEq

/-- The shared state and the requests' positions. -/
structure State (T : Type u) : Type u where
  /-- the blacklist table -/
  blacklist : T → Bool
  /-- tokens past their `exp` claim -/
  expired : T → Bool
  /-- the user table: is there a user, and is it active? -/
  users : ℤ → Option Bool
  /-- where each request is -/
  phase : ℕ → Phase
  /-- history: requests whose `blacklist()` raised `TokenError` -/
  blacklistRaised : ℕ → Bool

/-- One step of one request, or of the world around it. -/
inductive Label (T : Type u) : Type u where
  /-- the request constructs its `RefreshToken` -/
  | construct : ℕ → Label T
  /-- it loads the user (refresh) or compares the owner (logout) -/
  | check : ℕ → Label T
  /-- its `blacklist()` returns -/
  | blacklist : ℕ → Label T
  /-- its `blacklist()` raises `TokenError` -/
  | blacklistFails : ℕ → Label T
  /-- it mints the new pair -/
  | mint : ℕ → Label T
  /-- a token reaches its expiry -/
  | expire : T → Label T
  /-- a user is created, deleted, activated or deactivated -/
  | setUser : ℤ → Option Bool → Label T

variable {T : Type u} [DecidableEq T]

/-- `ErrorResponse(message="Refresh token is required", status_code=400)`. -/
def required : Response := .error 400 "Refresh token is required"

/-- `ErrorResponse(message="Invalid or expired refresh token", status_code=401)`. -/
def invalid : Response := .error 401 "Invalid or expired refresh token"

/-- `ErrorResponse(..., status_code=503)` of a failed rotation. -/
def unavailable : Response :=
  .error 503 "Token rotation temporarily unavailable. Please retry."

/-- `SuccessResponse(message="Successfully logged out.")`. -/
def loggedOut : Response := .success "Successfully logged out."

/-- Move request `i` to the phase `p`. -/
def State.goto (s : State T) (i : ℕ) (p : Phase) : State T :=
  { s with phase := Function.update s.phase i p }

omit [DecidableEq T] in
@[simp] theorem State.goto_phase_self (s : State T) (i : ℕ) (p : Phase) :
    (s.goto i p).phase i = p :=
  Function.update_self ..

omit [DecidableEq T] in
@[simp] theorem State.goto_phase_ne (s : State T) {i j : ℕ} (h : j ≠ i) (p : Phase) :
    (s.goto i p).phase j = s.phase j :=
  Function.update_of_ne h ..

/-- `RefreshToken(refresh_token)`: `true` when it does not raise `TokenError`. -/
def constructs (J : Jwt T) (s : State T) (t : T) : Bool :=
  J.verifies t && !s.expired t && !s.blacklist t

/-- `token_refresh`'s user check: where the request goes from `constructed`. -/
def loadUser (J : Jwt T) (s : State T) (t : T) : Phase :=
  match J.userId t with
  | .error e => .done (.raised e)
  | .ok uid =>
    match s.users uid with
    | some true => .checked
    | some false => .done invalid
    | none => .done invalid

/-- `logout`'s owner check. A `ValueError` is caught there, the others are not. -/
def compareOwner (J : Jwt T) (user : ℤ) (t : T) : Phase :=
  match J.userId t with
  | .error .valueError => .done invalid
  | .error e => .done (.raised e)
  | .ok uid => if uid = user then .checked else .done invalid

/-- The step function, for the given requests. -/
def step (J : Jwt T) (req : ℕ → Request T) (s : State T) : Label T → Option (State T)
  | .construct i =>
    match s.phase i, (req i).token with
    | .start, none => some (s.goto i (.done required))
    | .start, some t =>
      some (s.goto i (if constructs J s t then .constructed else .done invalid))
    | _, _ => none
  | .check i =>
    match s.phase i, req i with
    | .constructed, .refresh (some t) => some (s.goto i (loadUser J s t))
    | .constructed, .logout user (some t) => some (s.goto i (compareOwner J user t))
    | _, _ => none
  | .blacklist i =>
    match s.phase i, req i with
    | .checked, .refresh (some t) =>
      some (State.goto { s with blacklist := Function.update s.blacklist t true } i .blacklisted)
    | .checked, .logout _ (some t) =>
      some (State.goto { s with blacklist := Function.update s.blacklist t true } i
        (.done loggedOut))
    | _, _ => none
  | .blacklistFails i =>
    match s.phase i, req i with
    | .checked, .refresh _ =>
      some (State.goto
        { s with blacklistRaised := Function.update s.blacklistRaised i true } i
        (.done unavailable))
    | .checked, .logout _ _ =>
      some (State.goto
        { s with blacklistRaised := Function.update s.blacklistRaised i true } i
        (.done invalid))
    | _, _ => none
  | .mint i =>
    match s.phase i with
    | .blacklisted => some (s.goto i (.done .minted))
    | _ => none
  | .expire t => some { s with expired := Function.update s.expired t true }
  | .setUser uid active => some { s with users := Function.update s.users uid active }

/-- Rotation and logout as a machine. -/
def machine (J : Jwt T) (req : ℕ → Request T) : Machine (State T) (Label T) := ⟨step J req⟩

/-- No request has started; nothing about the tables is assumed. -/
def init (blacklist expired : T → Bool) (users : ℤ → Option Bool) : State T where
  blacklist := blacklist
  expired := expired
  users := users
  phase := fun _ => .start
  blacklistRaised := fun _ => false

/-! ## What a step can do -/

/-- Phases a request can reach without having blacklisted anything. -/
def Phase.Quiet (p : Phase) : Prop :=
  p = .constructed ∨ p = .checked ∨ ∃ r, p = .done r ∧ r ≠ .minted ∧ r ≠ loggedOut

/-- A request that answers with an error has blacklisted nothing, -/
theorem Phase.quiet_error (status : ℕ) (message : String) :
    (Phase.done (.error status message)).Quiet := by
  refine Or.inr (Or.inr ⟨_, rfl, ?_, ?_⟩) <;> simp [loggedOut]

/-- and neither has one that an exception ends. -/
theorem Phase.quiet_raised (e : ClaimError) : (Phase.done (.raised e)).Quiet := by
  refine Or.inr (Or.inr ⟨_, rfl, ?_, ?_⟩) <;> simp [loggedOut]

/-- The branches of `step`; the ones before `blacklist()` are taken together. -/
inductive Moves (req : ℕ → Request T) (s : State T) : Label T → State T → Prop where
  | construct (i : ℕ) (p : Phase) (hi : s.phase i = .start) (hp : p.Quiet) :
    Moves req s (.construct i) (s.goto i p)
  | check (i : ℕ) (p : Phase) (hi : s.phase i = .constructed) (hp : p.Quiet) :
    Moves req s (.check i) (s.goto i p)
  | refreshBlacklists (i : ℕ) (t : T) (hi : s.phase i = .checked)
      (hreq : req i = .refresh (some t)) :
    Moves req s (.blacklist i) (State.goto
      { s with blacklist := Function.update s.blacklist t true } i .blacklisted)
  | logoutBlacklists (i : ℕ) (user : ℤ) (t : T) (hi : s.phase i = .checked)
      (hreq : req i = .logout user (some t)) :
    Moves req s (.blacklist i) (State.goto
      { s with blacklist := Function.update s.blacklist t true } i (.done loggedOut))
  | blacklistFails (i : ℕ) (p : Phase) (hi : s.phase i = .checked)
      (hp : p = .done unavailable ∨ p = .done invalid) :
    Moves req s (.blacklistFails i) (State.goto
      { s with blacklistRaised := Function.update s.blacklistRaised i true } i p)
  | mint (i : ℕ) (hi : s.phase i = .blacklisted) :
    Moves req s (.mint i) (s.goto i (.done .minted))
  | expire (t : T) :
    Moves req s (.expire t) { s with expired := Function.update s.expired t true }
  | setUser (uid : ℤ) (active : Option Bool) :
    Moves req s (.setUser uid active) { s with users := Function.update s.users uid active }

omit [DecidableEq T] in
/-- Neither outcome of the user check blacklists anything. -/
theorem loadUser_quiet (J : Jwt T) (s : State T) (t : T) : (loadUser J s t).Quiet := by
  simp only [loadUser]
  split
  · exact Phase.quiet_raised _
  · split
    · exact Or.inr (Or.inl rfl)
    · exact Phase.quiet_error _ _
    · exact Phase.quiet_error _ _

omit [DecidableEq T] in
/-- Neither does any outcome of the owner check. -/
theorem compareOwner_quiet (J : Jwt T) (user : ℤ) (t : T) : (compareOwner J user t).Quiet := by
  simp only [compareOwner]
  split
  · exact Phase.quiet_error _ _
  · exact Phase.quiet_raised _
  · split
    · exact Or.inr (Or.inl rfl)
    · exact Phase.quiet_error _ _

/-- **Inversion**: every step is one of the listed moves. -/
theorem moves_of_step {J : Jwt T} {req : ℕ → Request T} {s s' : State T} {l : Label T}
    (h : (machine J req).step s l = some s') : Moves req s l s' := by
  change step J req s l = some s' at h
  cases l with
  | construct i =>
    simp only [step] at h
    split at h
    · next hi _ =>
      obtain rfl := Option.some.inj h
      exact .construct i _ hi (Phase.quiet_error _ _)
    · next t hi _ =>
      obtain rfl := Option.some.inj h
      apply Moves.construct i _ hi
      split
      · exact Or.inl rfl
      · exact Phase.quiet_error _ _
    · cases h
  | check i =>
    simp only [step] at h
    split at h
    · next t hi _ =>
      obtain rfl := Option.some.inj h
      exact .check i _ hi (loadUser_quiet J s t)
    · next user t hi _ =>
      obtain rfl := Option.some.inj h
      exact .check i _ hi (compareOwner_quiet J user t)
    · cases h
  | blacklist i =>
    simp only [step] at h
    split at h
    · next t hi hreq =>
      obtain rfl := Option.some.inj h
      exact .refreshBlacklists i t hi hreq
    · next user t hi hreq =>
      obtain rfl := Option.some.inj h
      exact .logoutBlacklists i user t hi hreq
    · cases h
  | blacklistFails i =>
    simp only [step] at h
    split at h
    · next hi _ =>
      obtain rfl := Option.some.inj h
      exact .blacklistFails i _ hi (Or.inl rfl)
    · next hi _ =>
      obtain rfl := Option.some.inj h
      exact .blacklistFails i _ hi (Or.inr rfl)
    · cases h
  | mint i =>
    simp only [step] at h
    split at h
    · next hi =>
      obtain rfl := Option.some.inj h
      exact .mint i hi
    · cases h
  | expire t =>
    obtain rfl := Option.some.inj h
    exact .expire t
  | setUser uid active =>
    obtain rfl := Option.some.inj h
    exact .setUser uid active

/-! ## Single use -/

/-- The request has blacklisted its token to mint, or has minted. -/
def Phase.Spent (p : Phase) : Prop :=
  p = .blacklisted ∨ p = .done .minted

/-- A refresh blacklists a token nobody has blacklisted yet, and a logout does
not blacklist while a refresh on the same token is about to mint. -/
def FirstToBlacklist (req : ℕ → Request T) (s : State T) (l : Label T) : Prop :=
  ∀ i, l = .blacklist i → ∀ t, (req i).token = some t →
    if (req i).isRefresh then s.blacklist t = false
    else ∀ j, (req j).token = some t → s.phase j ≠ .blacklisted

/-- The invariant of the runs that meet the guard. -/
structure SingleUse (req : ℕ → Request T) (s : State T) : Prop where
  /-- only a refresh with a token mints, and it has blacklisted that token -/
  spent : ∀ i, (s.phase i).Spent → ∃ t, req i = .refresh (some t) ∧ s.blacklist t = true
  /-- only a logout with a token logs out, and it has blacklisted that token -/
  out : ∀ i, s.phase i = .done loggedOut →
    ∃ user t, req i = .logout user (some t) ∧ s.blacklist t = true
  /-- no two requests spend the same token -/
  unique : ∀ i j, (req i).token = (req j).token → (s.phase i).Spent → (s.phase j).Spent → i = j
  /-- nobody is about to mint for a token that was logged out -/
  settled : ∀ i j, (req i).token = (req j).token → s.phase j = .done loggedOut →
    s.phase i ≠ .blacklisted
  /-- a request whose `blacklist()` raised has been answered with an error -/
  raised : ∀ i, s.blacklistRaised i = true →
    s.phase i = .done unavailable ∨ s.phase i = .done invalid

omit [DecidableEq T] in
theorem singleUse_init (req : ℕ → Request T) (blacklist expired : T → Bool)
    (users : ℤ → Option Bool) : SingleUse req (init blacklist expired users) := by
  refine ⟨?_, by simp [init], ?_, by simp [init], by simp [init]⟩
  · rintro i (h | h) <;> cases h
  · rintro i j - (h | h) <;> cases h

theorem Phase.Quiet.not_spent {p : Phase} (hp : p.Quiet) : ¬ p.Spent := by
  rintro (rfl | rfl)
  · rcases hp with h | h | ⟨r, h, -, -⟩ <;> cases h
  · rcases hp with h | h | ⟨r, h, hr, -⟩
    · cases h
    · cases h
    · cases h
      exact hr rfl

theorem Phase.Quiet.ne_loggedOut {p : Phase} (hp : p.Quiet) : p ≠ .done loggedOut := by
  rintro rfl
  rcases hp with h | h | ⟨r, h, -, hr⟩
  · cases h
  · cases h
  · cases h
    exact hr rfl

omit [DecidableEq T] in
/-- A request that goes to a quiet phase neither spends nor logs out; if its
`blacklist()` has raised, it must have been answered. -/
theorem SingleUse.quiet {req : ℕ → Request T} {s : State T} (hs : SingleUse req s) {i : ℕ}
    {p : Phase} (hp : p.Quiet)
    (hraised : s.blacklistRaised i = true → p = .done unavailable ∨ p = .done invalid) :
    SingleUse req (s.goto i p) := by
  -- another phase than `p` at an index means that the index is not `i`
  have old : ∀ {j : ℕ} {P : Phase → Prop}, ¬ P p → P ((s.goto i p).phase j) →
      j ≠ i ∧ P (s.phase j) := by
    intro j P hnot hj
    by_cases hij : j = i
    · subst hij
      rw [State.goto_phase_self] at hj
      exact absurd hj hnot
    · rw [State.goto_phase_ne s hij] at hj
      exact ⟨hij, hj⟩
  refine ⟨?_, ?_, ?_, ?_, ?_⟩
  · intro j hj
    exact hs.spent j (old hp.not_spent hj).2
  · intro j hj
    exact hs.out j (old (P := (· = .done loggedOut)) hp.ne_loggedOut hj).2
  · intro j k htok hj hk
    exact hs.unique j k htok (old hp.not_spent hj).2 (old hp.not_spent hk).2
  · intro j k htok hk hj
    have hk' := (old (P := (· = .done loggedOut)) hp.ne_loggedOut hk).2
    have hj' := (old (P := (· = .blacklisted)) (fun h => hp.not_spent (Or.inl h)) hj).2
    exact hs.settled j k htok hk' hj'
  · intro j hj
    by_cases hij : j = i
    · subst hij
      rw [State.goto_phase_self]
      exact hraised hj
    · rw [State.goto_phase_ne s hij]
      exact hs.raised j hj

omit [DecidableEq T] in
/-- A request that has not been answered is none of those whose `blacklist()`
raised. -/
theorem SingleUse.ne_of_raised {req : ℕ → Request T} {s : State T} (hs : SingleUse req s)
    {i j : ℕ} (hi : ∀ r, s.phase i ≠ .done r) (hj : s.blacklistRaised j = true) : j ≠ i := by
  rintro rfl
  rcases hs.raised j hj with h | h
  · exact hi _ h
  · exact hi _ h

/-- Blacklisting only adds. -/
theorem blacklist_mono {s : State T} {t t' : T} (h : s.blacklist t' = true) :
    Function.update s.blacklist t true t' = true := by
  by_cases ht : t' = t
  · subst ht
    exact Function.update_self ..
  · rw [Function.update_of_ne ht]
    exact h

/-- A refresh that is the first to blacklist its token is the only one to spend
it. -/
theorem SingleUse.refreshBlacklists {req : ℕ → Request T} {s : State T} (hs : SingleUse req s)
    {i : ℕ} {t : T} (hi : s.phase i = .checked) (hreq : req i = .refresh (some t))
    (hfirst : s.blacklist t = false) :
    SingleUse req (State.goto
      { s with blacklist := Function.update s.blacklist t true } i .blacklisted) := by
  have htok : (req i).token = some t := by rw [hreq]; rfl
  -- whoever spent or logged out a token before had blacklisted it, so it was not `t`
  have spent_ne : ∀ j, (s.phase j).Spent → (req j).token ≠ some t := by
    intro j hj heq
    obtain ⟨t', hreq', hbl⟩ := hs.spent j hj
    rw [hreq'] at heq
    obtain rfl := Option.some.inj heq
    rw [hfirst] at hbl
    cases hbl
  have out_ne : ∀ j, s.phase j = .done loggedOut → (req j).token ≠ some t := by
    intro j hj heq
    obtain ⟨user, t', hreq', hbl⟩ := hs.out j hj
    rw [hreq'] at heq
    obtain rfl := Option.some.inj heq
    rw [hfirst] at hbl
    cases hbl
  refine ⟨?_, ?_, ?_, ?_, ?_⟩
  · intro j hj
    by_cases hij : j = i
    · subst hij
      exact ⟨t, hreq, Function.update_self ..⟩
    · rw [State.goto_phase_ne _ hij] at hj
      obtain ⟨t', hreq', hbl⟩ := hs.spent j hj
      exact ⟨t', hreq', blacklist_mono hbl⟩
  · intro j hj
    by_cases hij : j = i
    · subst hij
      rw [State.goto_phase_self] at hj
      cases hj
    · rw [State.goto_phase_ne _ hij] at hj
      obtain ⟨user, t', hreq', hbl⟩ := hs.out j hj
      exact ⟨user, t', hreq', blacklist_mono hbl⟩
  · intro j k hjk hj hk
    by_cases hji : j = i <;> by_cases hki : k = i
    · rw [hji, hki]
    · subst hji
      rw [State.goto_phase_ne _ hki] at hk
      exact absurd (hjk.symm.trans htok) (spent_ne k hk)
    · subst hki
      rw [State.goto_phase_ne _ hji] at hj
      exact absurd (hjk.trans htok) (spent_ne j hj)
    · rw [State.goto_phase_ne _ hji] at hj
      rw [State.goto_phase_ne _ hki] at hk
      exact hs.unique j k hjk hj hk
  · intro j k hjk hk hj
    have hki : k ≠ i := by
      rintro rfl
      rw [State.goto_phase_self] at hk
      cases hk
    rw [State.goto_phase_ne _ hki] at hk
    by_cases hji : j = i
    · subst hji
      exact out_ne k hk (hjk.symm.trans htok)
    · rw [State.goto_phase_ne _ hji] at hj
      exact hs.settled j k hjk hk hj
  · intro j hj
    have hji : j ≠ i := hs.ne_of_raised (by simp [hi]) hj
    rw [State.goto_phase_ne _ hji]
    exact hs.raised j hj

/-- A logout that blacklists while no refresh on its token is about to mint. -/
theorem SingleUse.logoutBlacklists {req : ℕ → Request T} {s : State T} (hs : SingleUse req s)
    {i : ℕ} {user : ℤ} {t : T} (hi : s.phase i = .checked)
    (hreq : req i = .logout user (some t))
    (hclear : ∀ j, (req j).token = some t → s.phase j ≠ .blacklisted) :
    SingleUse req (State.goto
      { s with blacklist := Function.update s.blacklist t true } i (.done loggedOut)) := by
  have htok : (req i).token = some t := by rw [hreq]; rfl
  have spent_old : ∀ {j},
      ((State.goto { s with blacklist := Function.update s.blacklist t true } i
        (.done loggedOut)).phase j).Spent → (s.phase j).Spent := by
    intro j hj
    by_cases hij : j = i
    · subst hij
      rw [State.goto_phase_self] at hj
      rcases hj with h | h <;> cases h
    · rwa [State.goto_phase_ne _ hij] at hj
  refine ⟨?_, ?_, ?_, ?_, ?_⟩
  · intro j hj
    obtain ⟨t', hreq', hbl⟩ := hs.spent j (spent_old hj)
    exact ⟨t', hreq', blacklist_mono hbl⟩
  · intro j hj
    by_cases hij : j = i
    · subst hij
      exact ⟨user, t, hreq, Function.update_self ..⟩
    · rw [State.goto_phase_ne _ hij] at hj
      obtain ⟨user', t', hreq', hbl⟩ := hs.out j hj
      exact ⟨user', t', hreq', blacklist_mono hbl⟩
  · intro j k hjk hj hk
    exact hs.unique j k hjk (spent_old hj) (spent_old hk)
  · intro j k hjk hk hj
    have hji : j ≠ i := by
      rintro rfl
      rw [State.goto_phase_self] at hj
      cases hj
    rw [State.goto_phase_ne _ hji] at hj
    by_cases hki : k = i
    · subst hki
      exact hclear j (hjk.trans htok) hj
    · rw [State.goto_phase_ne _ hki] at hk
      exact hs.settled j k hjk hk hj
  · intro j hj
    have hji : j ≠ i := hs.ne_of_raised (by simp [hi]) hj
    rw [State.goto_phase_ne _ hji]
    exact hs.raised j hj

/-- Every step that meets the guard keeps the invariant. -/
theorem SingleUse.step {req : ℕ → Request T} {s s' : State T} {l : Label T}
    (hs : SingleUse req s) (hG : FirstToBlacklist req s l) (h : Moves req s l s') :
    SingleUse req s' := by
  cases h with
  | construct i p hi hp =>
    exact hs.quiet hp fun hr => absurd rfl (hs.ne_of_raised (by simp [hi]) hr)
  | check i p hi hp =>
    exact hs.quiet hp fun hr => absurd rfl (hs.ne_of_raised (by simp [hi]) hr)
  | refreshBlacklists i t hi hreq =>
    have hfirst := hG i rfl t (by rw [hreq]; rfl)
    rw [hreq] at hfirst
    exact hs.refreshBlacklists hi hreq hfirst
  | logoutBlacklists i user t hi hreq =>
    have hclear := hG i rfl t (by rw [hreq]; rfl)
    rw [hreq] at hclear
    exact hs.logoutBlacklists hi hreq hclear
  | blacklistFails i p hi hp =>
    have hquiet : p.Quiet := by
      rcases hp with rfl | rfl
      · exact Phase.quiet_error _ _
      · exact Phase.quiet_error _ _
    have hgone := hs.quiet hquiet (i := i) (fun _ => hp)
    refine ⟨hgone.spent, hgone.out, hgone.unique, hgone.settled, ?_⟩
    intro j hj
    by_cases hji : j = i
    · subst hji
      rw [State.goto_phase_self]
      exact hp
    · exact hgone.raised j (by simpa [State.goto, hji] using hj)
  | mint i hi =>
    -- the request stays among those that have spent the token
    have spent_old : ∀ {j}, ((s.goto i (.done .minted)).phase j).Spent → (s.phase j).Spent := by
      intro j hj
      by_cases hij : j = i
      · subst hij
        exact Or.inl hi
      · rwa [State.goto_phase_ne _ hij] at hj
    have out_old : ∀ {j}, (s.goto i (.done .minted)).phase j = .done loggedOut →
        s.phase j = .done loggedOut := by
      intro j hj
      by_cases hij : j = i
      · subst hij
        rw [State.goto_phase_self] at hj
        cases hj
      · rwa [State.goto_phase_ne _ hij] at hj
    refine ⟨fun j hj => hs.spent j (spent_old hj), fun j hj => hs.out j (out_old hj),
      fun j k hjk hj hk => hs.unique j k hjk (spent_old hj) (spent_old hk), ?_, ?_⟩
    · intro j k hjk hk hj
      by_cases hji : j = i
      · subst hji
        exact hs.settled j k hjk (out_old hk) hi
      · rw [State.goto_phase_ne _ hji] at hj
        exact hs.settled j k hjk (out_old hk) hj
    · intro j hj
      have hji : j ≠ i := hs.ne_of_raised (by simp [hi]) hj
      rw [State.goto_phase_ne _ hji]
      exact hs.raised j hj
  | expire t => exact ⟨hs.spent, hs.out, hs.unique, hs.settled, hs.raised⟩
  | setUser uid active => exact ⟨hs.spent, hs.out, hs.unique, hs.settled, hs.raised⟩

/-- The token has been used at most once so far. -/
structure UsedOnce (J : Jwt T) (req : ℕ → Request T) (s : State T) (t : T) : Prop where
  /-- at most one request mints a new pair -/
  one_mint : ∀ i j, (req i).token = some t → (req j).token = some t →
    s.phase i = .done .minted → s.phase j = .done .minted → i = j
  /-- none mints after a logout has returned success -/
  no_mint_after_logout : ∀ i s', (req i).token = some t →
    (machine J req).step s (.mint i) = some s' →
    ∀ j, (req j).token = some t → s.phase j ≠ .done loggedOut
  /-- a request whose `blacklist()` raised mints nothing -/
  no_mint_after_failure : ∀ i, s.blacklistRaised i = true →
    s.phase i ≠ .done .minted ∧ (machine J req).step s (.mint i) = none

/-- **A refresh token is single use, where it is.** In every run in which a
refresh always finds its token not yet blacklisted when it blacklists it, and a
logout never blacklists a token for which a refresh is about to mint, every
token is used at most once. -/
theorem single_use_of_firstToBlacklist {J : Jwt T} {req : ℕ → Request T}
    {blacklist expired : T → Bool} {users : ℤ → Option Bool} {ls : List (Label T)} {s : State T}
    (hG : (machine J req).Meets (FirstToBlacklist req) (init blacklist expired users) ls)
    (h : (machine J req).run (init blacklist expired users) ls = some s) (t : T) :
    UsedOnce J req s t := by
  have hs : SingleUse req s :=
    Machine.run_invariant (fun hI hG hstep => hI.step hG (moves_of_step hstep))
      (singleUse_init req blacklist expired users) hG h
  refine ⟨?_, ?_, ?_⟩
  · intro i j hi hj hpi hpj
    exact hs.unique i j (hi.trans hj.symm) (Or.inr hpi) (Or.inr hpj)
  · intro i s' hi hstep j hj hout
    cases moves_of_step hstep with
    | mint _ hphase => exact hs.settled i j (hi.trans hj.symm) hout hphase
  · intro i hi
    rcases hs.raised i hi with hp | hp
    · refine ⟨by simp [hp, unavailable], ?_⟩
      simp [machine, TokenRotation.step, hp]
    · refine ⟨by simp [hp, invalid], ?_⟩
      simp [machine, TokenRotation.step, hp]

/-- Every token verifies and belongs to user `1`. -/
def plainJwt : Jwt Unit where
  verifies _ := true
  userId _ := .ok 1

/-- Requests `0` and `1` refresh with the same token, request `2` is its
owner's logout. -/
def sameToken : ℕ → Request Unit
  | 2 => .logout 1 (some ())
  | _ => .refresh (some ())

/-- A valid, unexpired token of an active user. -/
def freshToken : State Unit :=
  init (fun _ => false) (fun _ => false) (fun _ => some true)

/-- Two refreshes pass the check before either has blacklisted the token. -/
def overlappingRun : List (Label Unit) :=
  [.construct 0, .construct 1, .check 0, .check 1, .blacklist 0, .mint 0, .blacklist 1, .mint 1]

/-- In `overlappingRun` both refreshes mint. -/
theorem two_refreshes_both_mint :
    ¬ ∀ (J : Jwt Unit) (req : ℕ → Request Unit) (blacklist expired : Unit → Bool)
      (users : ℤ → Option Bool) (ls : List (Label Unit)) (s : State Unit) (t : Unit),
      (machine J req).run (init blacklist expired users) ls = some s → UsedOnce J req s t := by
  intro halways
  have honce := halways plainJwt sameToken _ _ _ overlappingRun _ ()
    (show (machine plainJwt sameToken).run freshToken overlappingRun = some _ from rfl)
  exact absurd (honce.one_mint 0 1 rfl rfl rfl rfl) (by decide)

/-- The first refresh is through before the second one and the logout start. -/
def sequentialRun : List (Label Unit) :=
  [.construct 0, .check 0, .blacklist 0, .mint 0, .construct 1, .construct 2]

/-- In `sequentialRun` no second request can mint. -/
theorem sequential_refreshes_single_use :
    ∃ s, (machine plainJwt sameToken).run freshToken sequentialRun = some s ∧
      s.phase 0 = .done .minted ∧ ∀ j, (sameToken j).token = some () →
        s.phase j = .done .minted → 0 = j := by
  refine ⟨_, rfl, rfl, ?_⟩
  intro j hj hm
  have hG : (machine plainJwt sameToken).Meets (FirstToBlacklist sameToken) freshToken
      sequentialRun := by
    simp [sequentialRun, Machine.Meets, FirstToBlacklist, machine, TokenRotation.step, freshToken,
      init, State.goto, constructs, loadUser, plainJwt, sameToken, Request.token,
      Request.isRefresh]
  exact (single_use_of_firstToBlacklist hG rfl ()).one_mint 0 j rfl hj rfl hm

end TokenRotation

end DjangoBoilerplate
