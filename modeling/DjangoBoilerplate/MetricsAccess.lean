import DjangoBoilerplate.ClientIp
import DjangoBoilerplate.IpAddress

/-!
# Who may read the metrics

`metrics_endpoint` of `apps/core/views.py` answers the addresses that `METRICS_ALLOWED_IPS` lists,
one by one or by networks, and refuses everyone else. Entries that cannot be read are passed over.

A list of IPv4 entries is a set of addresses, however its masks are written and whatever else is
between them, and an address is let in exactly if it is in that set (`served_iff`). Nothing but
`REMOTE_ADDR` is looked at, once `@api_view` has handed the request to the function: which requests
it answers itself, by their method, their `Accept` header or their credentials, is the framework's
and a parameter here.
-/

namespace DjangoBoilerplate

namespace Metrics

open IpAddress NetMasks

/-! ## The endpoint -/

/-- The settings that are read. -/
structure Config : Type where
  /-- `METRICS_ALLOWED_IPS` -/
  allowedIps : List Str
  /-- `METRICS_ENABLED` -/
  enabled : Bool

/-- What `from prometheus_client import ...` gives. -/
inductive Exporter : Type where
  /-- `ImportError` -/
  | missing
  /-- `generate_latest()` and `CONTENT_TYPE_LATEST` -/
  | installed (latest contentType : Str)

/-- `HttpResponse(content, status=status, content_type=content_type)`. -/
structure Response : Type where
  /-- the content -/
  content : Str
  /-- the status -/
  status : ℕ
  /-- the content type -/
  contentType : Str

/-- `text/plain; charset=utf-8` -/
def plainText : Str := "text/plain; charset=utf-8".toList

/-- What the loop of `_ip_allowed` says of an entry. -/
def entryAdmits (ip : Address) (entry : Str) : Bool :=
  if '/' ∈ entry then
    match readNetwork entry with
    | some network => network.contains ip
    | none => false
  else
    match readAddress entry with
    | some a => decide (ip = a)
    | none => false

/-- `_ip_allowed(client_ip, allow_list)`. -/
def ipAllowed (clientIp : Str) (allowList : List Str) : Bool :=
  if clientIp = [] then false
  else
    match readAddress clientIp with
    | some ip => allowList.any (entryAdmits ip)
    | none => false

/-- `_metrics_client_ip(request)`. -/
def metricsClientIp (m : ClientIp.Meta) : Str := m.remoteAddr.getD []

/-- `metrics_endpoint(request)`. -/
def metricsEndpoint (config : Config) (exporter : Exporter) (m : ClientIp.Meta) : Response :=
  if ipAllowed (metricsClientIp m) config.allowedIps then
    if config.enabled then
      match exporter with
      | .missing =>
        ⟨"metrics enabled but prometheus_client is not installed".toList, 503, plainText⟩
      | .installed latest contentType => ⟨latest, 200, contentType⟩
    else ⟨"metrics exporter not configured".toList, 503, plainText⟩
  else ⟨"forbidden: metrics endpoint is IP-restricted".toList, 403, plainText⟩

section Decorated

variable {Request : Type}

/-- `@api_view(["GET"])`: the framework answers a request, or calls the function. -/
def apiView (refusal : Request → Option Response) (function : Request → Response)
    (request : Request) : Response :=
  match refusal request with
  | some response => response
  | none => function request

/-- `metrics_endpoint`, decorated. -/
def metricsView (refusal : Request → Option Response) (metaOf : Request → ClientIp.Meta)
    (config : Config) (exporter : Exporter) (request : Request) : Response :=
  apiView refusal (fun request => metricsEndpoint config exporter (metaOf request)) request

end Decorated

/-! ## Lists of entries -/

/-- An entry of the list. -/
inductive Entry : Type where
  /-- an IPv4 address -/
  | host (n : ℕ) (hn : n < 2 ^ 32)
  /-- an IPv4 network, by any of its addresses -/
  | network (base p : ℕ) (hbase : base < 2 ^ 32) (style : MaskText) (hstyle : style.Fits p)
  /-- what is neither an address nor a network -/
  | unreadable (s : Str) (hs : readAddress s = none ∧ readNetwork s = none)

/-- The text in the list. -/
def Entry.text : Entry → Str
  | .host n _ => v4Text n
  | .network base p _ style _ => v4Text base ++ '/' :: style.text p
  | .unreadable s _ => s

/-- The addresses it stands for. -/
def Entry.addresses : Entry → Set ℕ
  | .host n _ => {n}
  | .network base p _ _ _ => block 32 p base
  | .unreadable _ _ => ∅

/-- `_ip_allowed`: the client has an address, and one of the entries takes it. -/
theorem ipAllowed_iff {clientIp : Str} {allowList : List Str} :
    ipAllowed clientIp allowList = true ↔
      ∃ ip, readAddress clientIp = some ip ∧ ∃ entry ∈ allowList, entryAdmits ip entry = true := by
  rcases eq_or_ne clientIp [] with rfl | hne
  · refine iff_of_false (by simp [ipAllowed]) ?_
    rintro ⟨ip, hread, -⟩
    have hnone : readAddress [] = none := rfl
    rw [hnone] at hread
    cases hread
  · rw [ipAllowed, if_neg hne]
    cases hread : readAddress clientIp with
    | none => simp
    | some ip => simp

theorem ne_403_iff {config : Config} {exporter : Exporter} {m : ClientIp.Meta} :
    (metricsEndpoint config exporter m).status ≠ 403 ↔
      ipAllowed (metricsClientIp m) config.allowedIps = true := by
  rcases hallowed : ipAllowed (metricsClientIp m) config.allowedIps with _ | _
  · simp [metricsEndpoint, hallowed]
  · rcases henabled : config.enabled with _ | _
    · simp [metricsEndpoint, hallowed, henabled]
    · cases exporter with
      | missing => simp [metricsEndpoint, hallowed, henabled]
      | installed latest contentType => simp [metricsEndpoint, hallowed, henabled]

/-- An entry takes the addresses that it stands for. -/
theorem entryAdmits_iff (ip : Address) (entry : Entry) :
    entryAdmits ip entry.text = true ↔
      ∃ n hn, ip = v4Address n hn ∧ n ∈ entry.addresses := by
  cases entry with
  | host n hn =>
    have hslash : '/' ∉ v4Text n := not_mem_v4Text (by decide) (by decide) n
    rw [Entry.text, entryAdmits, if_neg hslash, readAddress_v4Text hn]
    simp only [decide_eq_true_eq]
    constructor
    · rintro rfl
      exact ⟨n, hn, rfl, rfl⟩
    · rintro ⟨k, hk, rfl, hmem⟩
      obtain rfl : k = n := hmem
      rfl
  | network base p hbase style hstyle =>
    have hslash : '/' ∈ v4Text base ++ '/' :: style.text p :=
      List.mem_append_right _ List.mem_cons_self
    rw [Entry.text, entryAdmits, if_pos hslash, readNetwork_text hbase hstyle]
    simp only [Network.contains_iff]
    have hblock := block_land_netmask hstyle.1 hbase
    constructor
    · rintro ⟨hversion, hmem⟩
      obtain ⟨hn, heq⟩ := eq_v4Address hversion
      refine ⟨ip.value, hn, heq, ?_⟩
      rw [Entry.addresses, ← hblock]
      exact hmem
    · rintro ⟨n, hn, rfl, hmem⟩
      refine ⟨rfl, ?_⟩
      rw [Entry.addresses, ← hblock] at hmem
      exact hmem
  | unreadable s hs =>
    refine iff_of_false ?_ ?_
    · rw [Entry.text, entryAdmits, hs.1, hs.2]
      simp
    · rintro ⟨n, hn, -, hmem⟩
      exact hmem

/-- An IPv4 client is known by its text. -/
theorem readAddress_eq_v4Address {s : Str} {n : ℕ} {hn : n < 2 ^ 32} :
    readAddress s = some (v4Address n hn) ↔ s = v4Text n := by
  constructor
  · intro h
    rcases Option.or_eq_some_iff.mp h with h | ⟨-, h⟩
    · obtain ⟨k, hk, heq, rfl⟩ := readV4_eq_some.mp h
      obtain rfl : n = k := congrArg Address.value heq
      rfl
    · cases version_of_readV6 h
  · rintro rfl
    exact readAddress_v4Text hn

theorem lt_of_mem_addresses {entry : Entry} {n : ℕ} (h : n ∈ entry.addresses) : n < 2 ^ 32 := by
  cases entry with
  | host k hk =>
    obtain rfl : n = k := h
    exact hk
  | network base p hbase style hstyle => exact h.1
  | unreadable s hs => exact absurd h (Set.notMem_empty n)

/-- **Whatever else the request says: if it is handed to the function, the client is refused
unless `REMOTE_ADDR` is the text of an address that one of the entries stands for.** -/
theorem served_iff {Request : Type} (refusal : Request → Option Response)
    (metaOf : Request → ClientIp.Meta) (config : Config) (exporter : Exporter) (request : Request)
    (hrefusal : refusal request = none) (entries : List Entry)
    (hentries : config.allowedIps = entries.map Entry.text) :
    (metricsView refusal metaOf config exporter request).status ≠ 403 ↔
      ∃ n, metricsClientIp (metaOf request) = v4Text n ∧ ∃ entry ∈ entries, n ∈ entry.addresses := by
  have hview : metricsView refusal metaOf config exporter request =
      metricsEndpoint config exporter (metaOf request) := by
    simp only [metricsView, apiView, hrefusal]
  rw [hview, ne_403_iff, ipAllowed_iff, hentries]
  constructor
  · rintro ⟨ip, hread, text, htext, hadmits⟩
    obtain ⟨entry, hentry, rfl⟩ := List.mem_map.mp htext
    obtain ⟨n, hn, rfl, hmem⟩ := (entryAdmits_iff ip entry).mp hadmits
    exact ⟨n, readAddress_eq_v4Address.mp hread, entry, hentry, hmem⟩
  · rintro ⟨n, hclient, entry, hentry, hmem⟩
    have hn := lt_of_mem_addresses hmem
    exact ⟨v4Address n hn, readAddress_eq_v4Address.mpr hclient, entry.text,
      List.mem_map_of_mem hentry, (entryAdmits_iff _ entry).mpr ⟨n, hn, rfl, hmem⟩⟩

/-- A request from inside the network; the header claims another address. -/
def scrape : ClientIp.Meta where
  xForwardedFor := some "127.0.0.1".toList
  xRealIp := none
  remoteAddr := some "10.1.2.3".toList
  remoteAddr_nonblank := by
    intro addr haddr
    obtain rfl := Option.some.inj haddr
    decide

/-- Any method but `GET` is refused. -/
def onlyGet (request : String × ClientIp.Meta) : Option Response :=
  if request.1 = "GET" then none else some ⟨[], 405, []⟩

/-- An entry that cannot be read, and a network by an address in it and the mask of the other
bits. -/
def allowed : Config := ⟨["bad-cidr/".toList, "10.0.0.9/0.255.255.255".toList], false⟩

/-- The scraper is let in, and told that there are no metrics. -/
theorem scrape_served :
    (metricsView onlyGet Prod.snd allowed .missing ("GET", scrape)).status ≠ 403 := by
  have hbase : 10 * 2 ^ 24 + 9 < 2 ^ 32 := by decide
  have hstyle : MaskText.hostmask.Fits 8 := ⟨by decide, fun _ => by decide⟩
  refine (served_iff onlyGet Prod.snd allowed .missing ("GET", scrape) rfl
    [.unreadable "bad-cidr/".toList ⟨by decide, by decide⟩,
      .network (10 * 2 ^ 24 + 9) 8 hbase .hostmask hstyle] ?_).mpr ?_
  · rfl
  · exact ⟨10 * 2 ^ 24 + 2 ^ 16 + 2 * 2 ^ 8 + 3, by decide, _,
      List.mem_cons_of_mem _ List.mem_cons_self, by decide, by decide⟩

end Metrics

end DjangoBoilerplate
