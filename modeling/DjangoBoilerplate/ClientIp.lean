import DjangoBoilerplate.Text

/-!
# Who is calling

`client_ip` of `apps/core/utils/network.py`. The headers are tested before they are split and
trimmed, so one that has something in it, but nothing that is left, is taken for an address; the
address of the peer is not trimmed at all. `labelled_iff` says for which requests neither
happens.
-/

namespace DjangoBoilerplate

namespace ClientIp

/-- The entries of `request.META` that are read. -/
structure Meta : Type where
  /-- `HTTP_X_FORWARDED_FOR` -/
  xForwardedFor : Option Str
  /-- `HTTP_X_REAL_IP` -/
  xRealIp : Option Str
  /-- `REMOTE_ADDR` -/
  remoteAddr : Option Str
  /-- the server does not record a blank -/
  remoteAddr_nonblank : ∀ addr, remoteAddr = some addr → addr.strip ≠ []

/-- `header.split(",")[0].strip()`. -/
def firstHop (header : Str) : Str := ((header.split ',').headD []).strip

/-- `request.META.get("REMOTE_ADDR") or "unknown"`. -/
def Meta.peer (m : Meta) : Str :=
  match m.remoteAddr with
  | none => "unknown".toList
  | some addr => if addr = [] then "unknown".toList else addr

/-- `client_ip(request)`; an absent header is as good as an empty one. -/
def clientIp (useXForwardedFor : Bool) (m : Meta) : Str :=
  if useXForwardedFor then
    let xff := m.xForwardedFor.getD []
    if xff ≠ [] then firstHop xff
    else
      let realIp := m.xRealIp.getD []
      if realIp ≠ [] then realIp.strip else m.peer
  else m.peer

/-- The address by the documented order, each step taken if what it gives is not blank. -/
def documented (m : Meta) : Str :=
  if firstHop (m.xForwardedFor.getD []) ≠ [] then firstHop (m.xForwardedFor.getD [])
  else if (m.xRealIp.getD []).strip ≠ [] then (m.xRealIp.getD []).strip
  else m.peer

/-- What is asked of the label of a request. -/
structure Labelled (useXForwardedFor : Bool) (m : Meta) (ip : Str) : Prop where
  /-- it is not empty -/
  nonempty : ip ≠ []
  /-- it has no white space around it -/
  trimmed : ip.strip = ip
  /-- it is found in the documented order -/
  order : useXForwardedFor = true → ip = documented m

/-- A header that is there has an address in it where it is read; the address of the peer, where
it is what counts, has no white space around it. -/
structure Clean (useXForwardedFor : Bool) (m : Meta) : Prop where
  /-- the first hop is not blank -/
  xForwardedFor : useXForwardedFor = true → m.xForwardedFor.getD [] ≠ [] →
    firstHop (m.xForwardedFor.getD []) ≠ []
  /-- nor the other header -/
  xRealIp : useXForwardedFor = true → m.xForwardedFor.getD [] = [] → m.xRealIp.getD [] ≠ [] →
    (m.xRealIp.getD []).strip ≠ []
  /-- the peer -/
  remoteAddr : (useXForwardedFor = true → m.xForwardedFor.getD [] = [] ∧ m.xRealIp.getD [] = []) →
    ∀ addr, m.remoteAddr = some addr → addr.strip = addr

theorem strip_firstHop (header : Str) : (firstHop header).strip = firstHop header :=
  Str.stripBy_stripBy _ _

theorem peer_ne_nil (m : Meta) : m.peer ≠ [] := by
  rw [Meta.peer]
  split
  · decide
  · split
    · decide
    · assumption

theorem peer_trimmed_iff (m : Meta) :
    m.peer.strip = m.peer ↔ ∀ addr, m.remoteAddr = some addr → addr.strip = addr := by
  rw [Meta.peer]
  cases haddr : m.remoteAddr with
  | none => simp; decide
  | some addr =>
    have hne : addr ≠ [] := by
      rintro rfl
      exact m.remoteAddr_nonblank [] haddr rfl
    simp [hne]

/-- Where the peer counts, its address decides. -/
theorem labelled_peer_iff {useXForwardedFor : Bool} {m : Meta}
    (horder : useXForwardedFor = true → m.peer = documented m) :
    Labelled useXForwardedFor m m.peer ↔ ∀ addr, m.remoteAddr = some addr → addr.strip = addr := by
  rw [← peer_trimmed_iff]
  constructor
  · intro h
    exact h.trimmed
  · intro h
    exact ⟨peer_ne_nil m, h, horder⟩

/-- With the setting on and an `X-Forwarded-For`, its first hop does. -/
theorem labelled_firstHop_iff {m : Meta} :
    Labelled true m (firstHop (m.xForwardedFor.getD [])) ↔
      firstHop (m.xForwardedFor.getD []) ≠ [] := by
  constructor
  · intro h
    exact h.nonempty
  · intro h
    refine ⟨h, strip_firstHop _, ?_⟩
    intro _
    rw [documented, if_pos h]

/-- Without one, the `X-Real-IP`. -/
theorem labelled_realIp_iff {m : Meta} (hxff : m.xForwardedFor.getD [] = []) :
    Labelled true m (m.xRealIp.getD []).strip ↔ (m.xRealIp.getD []).strip ≠ [] := by
  constructor
  · intro h
    exact h.nonempty
  · intro h
    refine ⟨h, Str.stripBy_stripBy _ _, ?_⟩
    intro _
    rw [documented, hxff, if_neg (by decide), if_pos h]

/-- **The label of a request.** `client_ip` gives every request a label that is not blank, in the
documented order, exactly if the headers and the peer are clean. -/
theorem labelled_iff (useXForwardedFor : Bool) (m : Meta) :
    Labelled useXForwardedFor m (clientIp useXForwardedFor m) ↔ Clean useXForwardedFor m := by
  cases useXForwardedFor with
  | false =>
    have hip : clientIp false m = m.peer := rfl
    rw [hip, labelled_peer_iff (by simp)]
    constructor
    · intro h
      exact ⟨by simp, by simp, fun _ => h⟩
    · intro h
      exact h.remoteAddr (by simp)
  | true =>
    by_cases hxff : m.xForwardedFor.getD [] = []
    · by_cases hreal : m.xRealIp.getD [] = []
      · have hip : clientIp true m = m.peer := by simp [clientIp, hxff, hreal]
        have hpeer : m.peer = documented m := by
          rw [documented, hxff, hreal, if_neg (by decide), if_neg (by decide)]
        rw [hip, labelled_peer_iff fun _ => hpeer]
        constructor
        · intro h
          exact ⟨fun _ hne => absurd hxff hne, fun _ _ hne => absurd hreal hne, fun _ => h⟩
        · intro h
          exact h.remoteAddr fun _ => ⟨hxff, hreal⟩
      · have hip : clientIp true m = (m.xRealIp.getD []).strip := by simp [clientIp, hxff, hreal]
        rw [hip, labelled_realIp_iff hxff]
        constructor
        · intro h
          exact ⟨fun _ hne => absurd hxff hne, fun _ _ _ => h,
            fun hdirect => absurd (hdirect rfl).2 hreal⟩
        · intro h
          exact h.xRealIp rfl hxff hreal
    · have hip : clientIp true m = firstHop (m.xForwardedFor.getD []) := by simp [clientIp, hxff]
      rw [hip, labelled_firstHop_iff]
      constructor
      · intro h
        exact ⟨fun _ _ => h, fun _ hnil => absurd hnil hxff,
          fun hdirect => absurd (hdirect rfl).1 hxff⟩
      · intro h
        exact h.xForwardedFor rfl hxff

/-- A header of one comma: the label is empty. -/
theorem comma_header_blank :
    ¬ ∀ (useXForwardedFor : Bool) (m : Meta),
      Labelled useXForwardedFor m (clientIp useXForwardedFor m) := by
  intro halways
  have h := halways true ⟨some [','], none, some "10.0.0.1".toList, by
    rintro addr ⟨⟩
    decide⟩
  exact h.nonempty (by decide)

/-- A hop with spaces around it, and the peer behind the proxy. -/
example : clientIp true ⟨some " 1.2.3.4 , 5.6.7.8".toList, none, none, by simp⟩ =
    "1.2.3.4".toList := by
  decide

end ClientIp

end DjangoBoilerplate
