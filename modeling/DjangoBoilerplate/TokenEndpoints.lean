import DjangoBoilerplate.Json
import DjangoBoilerplate.TokenRotation

/-!
# The token endpoints

`token_refresh` and `logout` of `apps/accounts/views.py` from the parsed body of a request to
its response. The body is any JSON value and the claims of a token are, too: both views call
`.get` on whatever the body is, and `int()` on whatever stands under `"user_id"`.

`serve` is what a request of the rotation machine comes to if nothing interrupts it
(`serve_run`). `endpoint_answers_iff` says for which bodies and claims the views respond.
-/

namespace DjangoBoilerplate

namespace TokenRotation

universe u

/-! ## A request on its own -/

section Serve

variable {T : Type u} (J : Jwt T) (s : State T)

/-- What the request answers if nothing comes between its steps. `raises` says whether its
`blacklist()` raises `TokenError`. -/
def serve (raises : Bool) : Request T → Response
  | .refresh none => required
  | .logout _ none => required
  | .refresh (some t) =>
    if constructs J s t then
      match loadUser J s t with
      | .done r => r
      | _ => if raises then unavailable else .minted
    else invalid
  | .logout user (some t) =>
    if constructs J s t then
      match compareOwner J user t with
      | .done r => r
      | _ => if raises then invalid else loggedOut
    else invalid

/-- The user check answers or lets the request go on, -/
theorem loadUser_cases (t : T) :
    loadUser J s t = .checked ∨ ∃ r, loadUser J s t = .done r := by
  unfold loadUser
  split
  · exact Or.inr ⟨_, rfl⟩
  · split
    · exact Or.inl rfl
    · exact Or.inr ⟨_, rfl⟩
    · exact Or.inr ⟨_, rfl⟩

/-- and so does the owner check. -/
theorem compareOwner_cases (user : ℤ) (t : T) :
    compareOwner J user t = .checked ∨ ∃ r, compareOwner J user t = .done r := by
  unfold compareOwner
  split
  · exact Or.inr ⟨_, rfl⟩
  · exact Or.inr ⟨_, rfl⟩
  · split
    · exact Or.inl rfl
    · exact Or.inr ⟨_, rfl⟩

variable {J s} [DecidableEq T] {req : ℕ → Request T} {i : ℕ}

/-- Some steps from here the request has this answer. -/
def Ends (J : Jwt T) (req : ℕ → Request T) (s : State T) (i : ℕ) (r : Response) : Prop :=
  ∃ ls t, (machine J req).run s ls = some t ∧ t.phase i = .done r

theorem ends_done {r : Response} (h : s.phase i = .done r) : Ends J req s i r := ⟨[], s, rfl, h⟩

theorem Ends.of_step {l : Label T} {t : State T} {r : Response} (h : step J req s l = some t)
    (ht : Ends J req t i r) : Ends J req s i r := by
  obtain ⟨ls, w, hrun, hdone⟩ := ht
  refine ⟨l :: ls, w, ?_, hdone⟩
  have hstep : (machine J req).step s l = some t := h
  rw [Machine.run, hstep]
  exact hrun

theorem ends_required (hstart : s.phase i = .start) (htoken : (req i).token = none) :
    Ends J req s i required := by
  refine Ends.of_step (l := .construct i) (t := s.goto i (.done required)) ?_
    (ends_done (s.goto_phase_self i _))
  simp [step, hstart, htoken]

/-- The first step of a request with a token. -/
theorem ends_of_construct {t : T} {r : Response} (hstart : s.phase i = .start)
    (htoken : (req i).token = some t)
    (hvalid : constructs J s t = true → Ends J req (s.goto i .constructed) i r)
    (hinvalid : constructs J s t = false → r = invalid) : Ends J req s i r := by
  rcases hconstructs : constructs J s t with _ | _
  · obtain rfl := hinvalid hconstructs
    refine Ends.of_step (l := .construct i) (t := s.goto i (.done invalid)) ?_
      (ends_done (s.goto_phase_self i _))
    simp [step, hstart, htoken, hconstructs]
  · refine Ends.of_step (l := .construct i) ?_ (hvalid hconstructs)
    simp [step, hstart, htoken, hconstructs]

/-- The last steps of a refresh, -/
theorem ends_of_refresh_checked {t : T} (hchecked : s.phase i = .checked)
    (hreq : req i = .refresh (some t)) (raises : Bool) :
    Ends J req s i (if raises then unavailable else .minted) := by
  cases raises with
  | true =>
    have hfails : step J req s (.blacklistFails i) = some (State.goto
        { s with blacklistRaised := Function.update s.blacklistRaised i true } i
        (.done unavailable)) := by
      simp only [step, hchecked, hreq]
    exact .of_step hfails (ends_done (State.goto_phase_self _ i _))
  | false =>
    have hblacklist : step J req s (.blacklist i) = some (State.goto
        { s with blacklist := Function.update s.blacklist t true } i .blacklisted) := by
      simp only [step, hchecked, hreq]
    refine .of_step hblacklist ?_
    generalize hs : State.goto { s with blacklist := Function.update s.blacklist t true } i
      .blacklisted = s₁
    have hmint : step J req s₁ (.mint i) = some (s₁.goto i (.done .minted)) := by
      rw [← hs]
      simp only [step, State.goto_phase_self]
    exact .of_step hmint (ends_done (State.goto_phase_self _ i _))

/-- and of a logout. -/
theorem ends_of_logout_checked {user : ℤ} {t : T} (hchecked : s.phase i = .checked)
    (hreq : req i = .logout user (some t)) (raises : Bool) :
    Ends J req s i (if raises then invalid else loggedOut) := by
  cases raises with
  | true =>
    have hfails : step J req s (.blacklistFails i) = some (State.goto
        { s with blacklistRaised := Function.update s.blacklistRaised i true } i
        (.done invalid)) := by
      simp only [step, hchecked, hreq]
    exact .of_step hfails (ends_done (State.goto_phase_self _ i _))
  | false =>
    have hblacklist : step J req s (.blacklist i) = some (State.goto
        { s with blacklist := Function.update s.blacklist t true } i (.done loggedOut)) := by
      simp only [step, hchecked, hreq]
    exact .of_step hblacklist (ends_done (State.goto_phase_self _ i _))

variable (J s)

/-- A request of the machine that nothing interrupts ends with this answer. -/
theorem serve_run (hstart : s.phase i = .start) (raises : Bool) :
    Ends J req s i (serve J s raises (req i)) := by
  rcases hreq : req i with (_ | t) | ⟨user, _ | t⟩
  · exact ends_required hstart (by rw [hreq]; rfl)
  · refine ends_of_construct (t := t) hstart (by rw [hreq]; rfl) ?_ ?_
    · intro hconstructs
      have hcheck : step J req (s.goto i .constructed) (.check i) =
          some ((s.goto i .constructed).goto i (loadUser J s t)) := by
        simp only [step, State.goto_phase_self, hreq]
        rfl
      refine .of_step hcheck ?_
      rw [serve, if_pos hconstructs]
      rcases loadUser_cases J s t with hchecked | ⟨r, hdone⟩
      · rw [hchecked]
        exact ends_of_refresh_checked (State.goto_phase_self _ i _) hreq raises
      · rw [hdone]
        exact ends_done (State.goto_phase_self _ i _)
    · intro hconstructs
      simp [serve, hconstructs]
  · exact ends_required hstart (by rw [hreq]; rfl)
  · refine ends_of_construct (t := t) hstart (by rw [hreq]; rfl) ?_ ?_
    · intro hconstructs
      have hcheck : step J req (s.goto i .constructed) (.check i) =
          some ((s.goto i .constructed).goto i (compareOwner J user t)) := by
        simp only [step, State.goto_phase_self, hreq]
      refine .of_step hcheck ?_
      rw [serve, if_pos hconstructs]
      rcases compareOwner_cases J user t with hchecked | ⟨r, hdone⟩
      · rw [hchecked]
        exact ends_of_logout_checked (State.goto_phase_self _ i _) hreq raises
      · rw [hdone]
        exact ends_done (State.goto_phase_self _ i _)
    · intro hconstructs
      simp [serve, hconstructs]

end Serve

/-! ## `int(token["user_id"])` -/

/-- How Python reads numbers. -/
structure Ints : Type where
  /-- `int(s)` of a string; `none` is the `ValueError` of one that is no integer -/
  ofStr : Str → Option ℤ
  /-- `int(x)` of a finite `float`, by its `repr` -/
  trunc : Str → ℤ

/-- `int(value)` of a JSON value. -/
def toInt (N : Ints) : Value → Except ClaimError ℤ
  | .bool b => .ok (if b then 1 else 0)
  | .int n => .ok n
  | .float t =>
    if t = "nan".toList then .error .valueError
    else if t = "inf".toList ∨ t = "-inf".toList then .error .overflowError
    else .ok (N.trunc t)
  | .str s =>
    match N.ofStr s with
    | some n => .ok n
    | none => .error .valueError
  | _ => .error .typeError

/-- `int(token["user_id"])`, by the claims of the token. -/
def userIdClaim (N : Ints) (claims : List (Str × Value)) : Except ClaimError ℤ :=
  match getItem claims "user_id".toList with
  | none => .error .keyError
  | some v => toInt N v

/-- What simplejwt makes of the value under `"refresh"`: does it verify, and what are its
claims? -/
structure Tokens : Type where
  /-- does the signature (and the token type) verify? -/
  verifies : Value → Bool
  /-- the payload -/
  claims : Value → List (Str × Value)

/-- The rotation machine's view of the tokens. -/
def Tokens.jwt (N : Ints) (tokens : Tokens) : Jwt Value where
  verifies := tokens.verifies
  userId t := userIdClaim N (tokens.claims t)

/-! ## The views -/

/-- The two views. -/
inductive Endpoint : Type where
  /-- `token_refresh` -/
  | tokenRefresh : Endpoint
  /-- `logout`, by the given authenticated user -/
  | logout (user : ℤ) : Endpoint

/-- The request of the rotation machine. -/
def Endpoint.request : Endpoint → Option Value → Request Value
  | .tokenRefresh, t => .refresh t
  | .logout user, t => .logout user t

/-- `refresh_token = request.data.get("refresh")`, and `not refresh_token`. -/
def refreshField (items : List (Str × Value)) : Option Value :=
  let refreshToken := (getItem items "refresh".toList).getD .none
  if refreshToken.truthy then some refreshToken else none

/-- How a view ends. -/
inductive Outcome : Type where
  /-- with a response, or an exception of `int(token["user_id"])` -/
  | ended (r : Response) : Outcome
  /-- the body has no `.get`: `AttributeError` -/
  | attributeError : Outcome

/-- The view on a parsed body. -/
def Endpoint.handle (N : Ints) (tokens : Tokens) (s : State Value) (raises : Bool)
    (e : Endpoint) : Value → Outcome
  | .dict items => .ended (serve (tokens.jwt N) s raises (e.request (refreshField items)))
  | _ => .attributeError

/-- The status code of a response. -/
def Response.status : Response → Option ℕ
  | .minted => some 200
  | .success _ => some 200
  | .error code _ => some code
  | .raised _ => none

/-- The view has responded with one of its status codes. -/
def Outcome.Answered (o : Outcome) : Prop :=
  ∃ r code, o = .ended r ∧ r.status = some code ∧ code ∈ [200, 400, 401, 503]

/-- Values `int()` takes. -/
def Integral (N : Ints) : Value → Prop
  | .bool _ => True
  | .int _ => True
  | .float t => t ≠ "nan".toList ∧ t ≠ "inf".toList ∧ t ≠ "-inf".toList
  | .str s => (N.ofStr s).isSome = true
  | _ => False

/-- Values `int()` raises `ValueError` for. -/
def Unreadable (N : Ints) : Value → Prop
  | .float t => t = "nan".toList
  | .str s => N.ofStr s = none
  | _ => False

/-- The claims the view copes with: a `user_id` that `int()` takes, and for `logout` also one
that it raises `ValueError` for. -/
def Endpoint.Copes (N : Ints) (e : Endpoint) (claims : List (Str × Value)) : Prop :=
  ∃ v, getItem claims "user_id".toList = some v ∧
    (Integral N v ∨ ((∃ user, e = .logout user) ∧ Unreadable N v))

section Answers

variable {N : Ints}

theorem toInt_ok_iff {v : Value} : (∃ n, toInt N v = .ok n) ↔ Integral N v := by
  cases v with
  | bool b => exact iff_of_true ⟨_, rfl⟩ trivial
  | int n => exact iff_of_true ⟨_, rfl⟩ trivial
  | float t =>
    rw [toInt, Integral]
    by_cases hnan : t = "nan".toList
    · rw [if_pos hnan]
      exact iff_of_false (fun ⟨_, h⟩ => nomatch h) fun h => h.1 hnan
    by_cases hinf : t = "inf".toList ∨ t = "-inf".toList
    · rw [if_neg hnan, if_pos hinf]
      exact iff_of_false (fun ⟨_, h⟩ => nomatch h) fun h => hinf.elim h.2.1 h.2.2
    · rw [if_neg hnan, if_neg hinf]
      exact iff_of_true ⟨_, rfl⟩ ⟨hnan, not_or.mp hinf⟩
  | str s =>
    rw [toInt, Integral]
    cases N.ofStr s with
    | none => simp
    | some n => simp
  | _ => exact iff_of_false (fun ⟨_, h⟩ => nomatch h) id

theorem toInt_valueError_iff {v : Value} :
    toInt N v = .error .valueError ↔ Unreadable N v := by
  cases v with
  | bool b => exact iff_of_false (fun h => nomatch h) id
  | int n => exact iff_of_false (fun h => nomatch h) id
  | float t =>
    rw [toInt, Unreadable]
    by_cases hnan : t = "nan".toList
    · rw [if_pos hnan]
      exact iff_of_true rfl hnan
    · rw [if_neg hnan]
      refine iff_of_false ?_ hnan
      split <;> exact fun h => nomatch h
  | str s =>
    rw [toInt, Unreadable]
    cases N.ofStr s with
    | none => simp
    | some n => simp
  | _ => exact iff_of_false (fun h => nomatch h) id

theorem copes_tokenRefresh_iff {claims : List (Str × Value)} :
    Endpoint.tokenRefresh.Copes N claims ↔ ∃ n, userIdClaim N claims = .ok n := by
  unfold Endpoint.Copes userIdClaim
  cases getItem claims "user_id".toList with
  | none => simp
  | some v => simp [toInt_ok_iff]

theorem copes_logout_iff {user : ℤ} {claims : List (Str × Value)} :
    (Endpoint.logout user).Copes N claims ↔
      (∃ n, userIdClaim N claims = .ok n) ∨ userIdClaim N claims = .error .valueError := by
  unfold Endpoint.Copes userIdClaim
  cases getItem claims "user_id".toList with
  | none => simp
  | some v => simp [toInt_ok_iff, toInt_valueError_iff]

theorem answered_required : (Outcome.ended required).Answered :=
  ⟨_, 400, rfl, rfl, by decide⟩

theorem answered_invalid : (Outcome.ended invalid).Answered :=
  ⟨_, 401, rfl, rfl, by decide⟩

theorem answered_unavailable : (Outcome.ended unavailable).Answered :=
  ⟨_, 503, rfl, rfl, by decide⟩

theorem answered_minted : (Outcome.ended .minted).Answered :=
  ⟨_, 200, rfl, rfl, by decide⟩

theorem answered_loggedOut : (Outcome.ended loggedOut).Answered :=
  ⟨_, 200, rfl, rfl, by decide⟩

theorem not_answered_raised (e : ClaimError) : ¬ (Outcome.ended (.raised e)).Answered := by
  rintro ⟨r, code, ⟨⟩, hstatus, -⟩
  cases hstatus

variable {tokens : Tokens} {s : State Value} {t : Value}

theorem answered_refresh_iff (hconstructs : constructs (tokens.jwt N) s t = true)
    (raises : Bool) :
    (Outcome.ended (serve (tokens.jwt N) s raises (.refresh (some t)))).Answered ↔
      ∃ n, userIdClaim N (tokens.claims t) = .ok n := by
  have huserId : (tokens.jwt N).userId t = userIdClaim N (tokens.claims t) := rfl
  rw [serve, if_pos hconstructs]
  rcases hclaim : userIdClaim N (tokens.claims t) with e | n
  · have hload : loadUser (tokens.jwt N) s t = .done (.raised e) := by
      rw [loadUser, huserId, hclaim]
    rw [hload]
    simpa using not_answered_raised e
  · refine iff_of_true ?_ ⟨n, rfl⟩
    have hload : loadUser (tokens.jwt N) s t = .checked ∨
        loadUser (tokens.jwt N) s t = .done invalid := by
      rw [loadUser, huserId, hclaim]
      dsimp only
      rcases s.users n with _ | _ | _
      · exact Or.inr rfl
      · exact Or.inr rfl
      · exact Or.inl rfl
    rcases hload with hload | hload
    · rw [hload]
      cases raises with
      | true => exact answered_unavailable
      | false => exact answered_minted
    · rw [hload]
      exact answered_invalid

theorem answered_logout_iff {user : ℤ} (hconstructs : constructs (tokens.jwt N) s t = true)
    (raises : Bool) :
    (Outcome.ended (serve (tokens.jwt N) s raises (.logout user (some t)))).Answered ↔
      (∃ n, userIdClaim N (tokens.claims t) = .ok n) ∨
        userIdClaim N (tokens.claims t) = .error .valueError := by
  have huserId : (tokens.jwt N).userId t = userIdClaim N (tokens.claims t) := rfl
  rw [serve, if_pos hconstructs]
  rcases hclaim : userIdClaim N (tokens.claims t) with e | n
  · by_cases he : e = .valueError
    · subst he
      have howner : compareOwner (tokens.jwt N) user t = .done invalid := by
        rw [compareOwner, huserId, hclaim]
      rw [howner]
      exact iff_of_true answered_invalid (Or.inr rfl)
    · have howner : compareOwner (tokens.jwt N) user t = .done (.raised e) := by
        rw [compareOwner, huserId, hclaim]
        cases e with
        | valueError => exact absurd rfl he
        | _ => rfl
      rw [howner]
      simpa [he] using not_answered_raised e
  · refine iff_of_true ?_ (Or.inl ⟨n, rfl⟩)
    have howner : compareOwner (tokens.jwt N) user t = .checked ∨
        compareOwner (tokens.jwt N) user t = .done invalid := by
      rw [compareOwner, huserId, hclaim]
      exact (em (n = user)).imp (fun h => if_pos h) fun h => if_neg h
    rcases howner with howner | howner
    · rw [howner]
      cases raises with
      | true => exact answered_invalid
      | false => exact answered_loggedOut
    · rw [howner]
      exact answered_invalid

/-- The views respond exactly if the body is an object, and if it has a token that simplejwt
takes, the view copes with its `user_id`. -/
theorem endpoint_answers_iff (N : Ints) (tokens : Tokens) (s : State Value) (raises : Bool)
    (e : Endpoint) (body : Value) :
    (e.handle N tokens s raises body).Answered ↔
      ∃ items, body = .dict items ∧
        ∀ t, refreshField items = some t → constructs (tokens.jwt N) s t = true →
          e.Copes N (tokens.claims t) := by
  cases body with
  | dict items =>
    have hitems : (∃ items', Value.dict items = .dict items' ∧
        ∀ t, refreshField items' = some t → constructs (tokens.jwt N) s t = true →
          e.Copes N (tokens.claims t)) ↔
        ∀ t, refreshField items = some t → constructs (tokens.jwt N) s t = true →
          e.Copes N (tokens.claims t) := by
      simp
    rw [hitems, Endpoint.handle]
    rcases hfield : refreshField items with _ | t
    · refine iff_of_true ?_ (fun t h => nomatch h)
      cases e <;> exact answered_required
    · simp only [Option.some.injEq, forall_eq']
      rcases hconstructs : constructs (tokens.jwt N) s t with _ | _
      · refine iff_of_true ?_ (fun h => nomatch h)
        have hserve : serve (tokens.jwt N) s raises (e.request (some t)) = invalid := by
          cases e <;> simp [Endpoint.request, serve, hconstructs]
        rw [hserve]
        exact answered_invalid
      · simp only [forall_const]
        cases e with
        | tokenRefresh =>
          rw [copes_tokenRefresh_iff]
          exact answered_refresh_iff hconstructs raises
        | logout user =>
          rw [copes_logout_iff]
          exact answered_logout_iff hconstructs raises
  | _ =>
    refine iff_of_false ?_ ?_
    · rintro ⟨r, code, h, -⟩
      cases h
    · rintro ⟨items, h, -⟩
      cases h

/-! ## Bodies and claims the views do not cope with -/

/-- Numbers as Lean reads them. -/
def plainInts : Ints where
  ofStr s := (String.ofList s).toInt?
  trunc _ := 0

/-- Every token verifies, with these claims. -/
def tokensWith (claims : List (Str × Value)) : Tokens where
  verifies _ := true
  claims _ := claims

/-- Nothing is blacklisted or expired, and user 1 is active. -/
def oneUser : State Value := init (fun _ => false) (fun _ => false) fun uid =>
  if uid = 1 then some true else none

/-- A list has no `.get`. -/
theorem array_body_raises :
    ¬ ∀ (N : Ints) (tokens : Tokens) (s : State Value) (raises : Bool) (e : Endpoint)
        (body : Value), (e.handle N tokens s raises body).Answered := by
  intro halways
  obtain ⟨r, code, h, -⟩ := halways plainInts (tokensWith []) oneUser false .tokenRefresh (.seq [])
  cases h

/-- A token of the user is refreshed; one without a `user_id` raises. -/
example :
    (Endpoint.tokenRefresh.handle plainInts (tokensWith [("user_id".toList, .int 1)]) oneUser
      false (.dict [("refresh".toList, .str "t".toList)])) = .ended .minted ∧
    (Endpoint.tokenRefresh.handle plainInts (tokensWith []) oneUser
      false (.dict [("refresh".toList, .str "t".toList)])) = .ended (.raised .keyError) :=
  ⟨rfl, rfl⟩

end Answers

end TokenRotation

end DjangoBoilerplate
