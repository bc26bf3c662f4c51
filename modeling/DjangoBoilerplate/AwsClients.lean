import DjangoBoilerplate.Machine
import DjangoBoilerplate.Text

/-!
# The AWS clients

`get_aws_client` (`apps/core/utils/aws.py`): a boto3 client for a service and a region, kept in a
`threading.local` under a name made of both. The hyphens of the two become underscores in the name,
so that different services and regions can share one.

Clients never cross threads, and a thread has one for each name, however the calls interleave; they
are all for what was asked exactly if no thread asks for two things under one name
(`clients_confined`). With service names like `s3` and `ses` none does (`cacheKey_inj`).
-/

namespace DjangoBoilerplate

namespace AwsClients

/-! ## `get_aws_client` -/

/-- A boto3 client. -/
structure Client : Type where
  /-- which object it is -/
  id : ℕ
  /-- `service_name` -/
  service : Str
  /-- `region_name` -/
  region : Str
  deriving DecidableEq

/-- A call that returned. -/
structure Handed : Type where
  /-- the thread -/
  thread : ℕ
  /-- `service_name` -/
  service : Str
  /-- `resolved_region` -/
  region : Str
  /-- what was returned -/
  client : Client
  deriving DecidableEq

/-- `region or getattr(settings, "AWS_REGION", "ap-south-1")`. -/
def resolvedRegion (awsRegion : Option Str) : Option Str → Str
  | some (c :: region) => c :: region
  | _ => awsRegion.getD "ap-south-1".toList

/-- A hyphen becomes an underscore. -/
def underscored (c : Char) : Char := if c = '-' then '_' else c

/-- `cache_key`. -/
def cacheKey (service region : Str) : Str :=
  ("_aws_".toList ++ (service ++ '_' :: region)).map underscored

/-- The name of a call. -/
def Handed.key (x : Handed) : Str := cacheKey x.service x.region

/-- The client is for what was asked. -/
def Handed.Right (x : Handed) : Prop := x.client.service = x.service ∧ x.client.region = x.region

/-- The process: the thread-local names, and what has been handed out. -/
structure State : Type where
  /-- `_thread_local` of each thread -/
  threadLocal : ℕ → Str → Option Client
  /-- how many clients have been made -/
  made : ℕ
  /-- the calls that returned, oldest first -/
  handed : List Handed

/-- A call by a thread. -/
structure Call : Type where
  /-- the thread -/
  thread : ℕ
  /-- `service_name` -/
  service : Str
  /-- `region` -/
  region : Option Str
  /-- does `boto3.client` return, if it comes to that? -/
  builds : Bool

/-- No client yet. -/
def State.init : State where
  threadLocal _ _ := none
  made := 0
  handed := []

/-- The call returns a client. -/
def State.hand (s : State) (thread : ℕ) (service region : Str) (client : Client) : State :=
  { s with handed := s.handed ++ [⟨thread, service, region, client⟩] }

/-- `client = boto3.client(...)`, and `setattr(_thread_local, cache_key, client)`. -/
def State.make (s : State) (thread : ℕ) (service region : Str) : State :=
  { s with
    threadLocal := Function.update s.threadLocal thread
      (Function.update (s.threadLocal thread) (cacheKey service region)
        (some ⟨s.made, service, region⟩))
    made := s.made + 1 }

/-- `get_aws_client(service_name, region=region)`. -/
def getAwsClient (awsRegion : Option Str) (s : State) (c : Call) : State :=
  let region := resolvedRegion awsRegion c.region
  match s.threadLocal c.thread (cacheKey c.service region) with
  | some client => s.hand c.thread c.service region client
  | none =>
    if c.builds then
      (s.make c.thread c.service region).hand c.thread c.service region
        ⟨s.made, c.service, region⟩
    else s

/-- The calls of all threads, in any order. -/
def machine (awsRegion : Option Str) : Machine State Call where
  step s c := some (getAwsClient awsRegion s c)

/-! ## Clients stay in their threads -/

/-- The names and the calls agree. -/
structure Inv (s : State) : Prop where
  /-- a client is under the name of the call it was made for, -/
  cached : ∀ thread key client, s.threadLocal thread key = some client →
    client.id < s.made ∧ cacheKey client.service client.region = key ∧
      ⟨thread, client.service, client.region, client⟩ ∈ s.handed
  /-- of one thread -/
  unique : ∀ thread thread' key key' client client', s.threadLocal thread key = some client →
    s.threadLocal thread' key' = some client' → client.id = client'.id →
      thread = thread' ∧ key = key'
  /-- and a call returns what is there under its name -/
  handed : ∀ x ∈ s.handed, s.threadLocal x.thread x.key = some x.client

theorem inv_init : Inv .init := by
  refine ⟨?_, ?_, ?_⟩ <;> simp [State.init]

theorem Inv.hand {s : State} (hs : Inv s) {thread : ℕ} {service region : Str} {client : Client}
    (hit : s.threadLocal thread (cacheKey service region) = some client) :
    Inv (s.hand thread service region client) := by
  refine ⟨?_, hs.unique, ?_⟩
  · intro thread' key' client' hclient
    obtain ⟨hid, hkey, hmem⟩ := hs.cached thread' key' client' hclient
    exact ⟨hid, hkey, List.mem_append_left _ hmem⟩
  · intro x hx
    rcases List.mem_append.mp hx with hx | hx
    · exact hs.handed x hx
    · obtain rfl := List.mem_singleton.mp hx
      exact hit

/-- What is under a name after a client was made. -/
theorem threadLocal_make {s : State} {thread thread' : ℕ} {service region key : Str}
    {client : Client} (h : (s.make thread service region).threadLocal thread' key = some client) :
    (thread' = thread ∧ key = cacheKey service region ∧ client = ⟨s.made, service, region⟩) ∨
      s.threadLocal thread' key = some client := by
  simp only [State.make] at h
  rcases eq_or_ne thread' thread with rfl | hthread
  · rw [Function.update_self] at h
    rcases eq_or_ne key (cacheKey service region) with rfl | hkey
    · rw [Function.update_self] at h
      exact .inl ⟨rfl, rfl, (Option.some.inj h).symm⟩
    · rw [Function.update_of_ne hkey] at h
      exact .inr h
  · rw [Function.update_of_ne hthread] at h
    exact .inr h

/-- A name that was there keeps its client. -/
theorem threadLocal_make_of_some {s : State} {thread thread' : ℕ} {service region key : Str}
    {client : Client} (hmiss : s.threadLocal thread (cacheKey service region) = none)
    (h : s.threadLocal thread' key = some client) :
    (s.make thread service region).threadLocal thread' key = some client := by
  simp only [State.make]
  rcases eq_or_ne thread' thread with rfl | hthread
  · have hkey : key ≠ cacheKey service region := by
      rintro rfl
      cases hmiss.symm.trans h
    rw [Function.update_self, Function.update_of_ne hkey, h]
  · rw [Function.update_of_ne hthread, h]

theorem Inv.make {s : State} (hs : Inv s) {thread : ℕ} {service region : Str}
    (hmiss : s.threadLocal thread (cacheKey service region) = none) :
    Inv ((s.make thread service region).hand thread service region ⟨s.made, service, region⟩) := by
  refine ⟨?_, ?_, ?_⟩
  · intro thread' key' client' hclient
    rcases threadLocal_make hclient with ⟨rfl, rfl, rfl⟩ | hold
    · exact ⟨Nat.lt_succ_self _, rfl, List.mem_append_right _ (List.mem_singleton_self _)⟩
    · obtain ⟨hid, hkey, hmem⟩ := hs.cached thread' key' client' hold
      exact ⟨hid.trans (Nat.lt_succ_self _), hkey, List.mem_append_left _ hmem⟩
  · intro thread₁ thread₂ key₁ key₂ client₁ client₂ h₁ h₂ hid
    -- the number of the new client is above those of the others
    rcases threadLocal_make h₁ with ⟨rfl, rfl, rfl⟩ | hold₁
    · rcases threadLocal_make h₂ with ⟨rfl, rfl, rfl⟩ | hold₂
      · exact ⟨rfl, rfl⟩
      · exact absurd hid.symm (hs.cached thread₂ key₂ client₂ hold₂).1.ne
    · rcases threadLocal_make h₂ with ⟨rfl, rfl, rfl⟩ | hold₂
      · exact absurd hid (hs.cached thread₁ key₁ client₁ hold₁).1.ne
      · exact hs.unique thread₁ thread₂ key₁ key₂ client₁ client₂ hold₁ hold₂ hid
  · intro x hx
    rcases List.mem_append.mp hx with hx | hx
    · exact threadLocal_make_of_some hmiss (hs.handed x hx)
    · obtain rfl := List.mem_singleton.mp hx
      simp only [State.hand, State.make, Handed.key, Function.update_self]

/-- **Step lemma.** -/
theorem Inv.step {awsRegion : Option Str} {s t : State} {c : Call} (hs : Inv s)
    (h : (machine awsRegion).step s c = some t) : Inv t := by
  obtain rfl := Option.some.inj h
  unfold getAwsClient
  dsimp only
  split
  · next client hit => exact hs.hand hit
  · next hmiss =>
    split
    · exact hs.make hmiss
    · exact hs

/-- The calls of a thread under one name are for one service and region. -/
def Distinct (handed : List Handed) : Prop :=
  ∀ x ∈ handed, ∀ y ∈ handed, x.thread = y.thread → x.key = y.key →
    x.service = y.service ∧ x.region = y.region

/-- A call returns the client of its thread and name. -/
theorem Inv.client_eq {s : State} (hs : Inv s) {x y : Handed} (hx : x ∈ s.handed)
    (hy : y ∈ s.handed) (hthread : x.thread = y.thread) (hkey : x.key = y.key) :
    x.client = y.client := by
  have hclient := hs.handed x hx
  rw [hthread, hkey, hs.handed y hy] at hclient
  exact (Option.some.inj hclient).symm

theorem Inv.right_iff {s : State} (hs : Inv s) :
    (∀ x ∈ s.handed, x.Right) ↔ Distinct s.handed := by
  refine ⟨?_, ?_⟩
  · intro hright x hx y hy hthread hkey
    obtain ⟨hservice, hregion⟩ := hright x hx
    obtain ⟨hservice', hregion'⟩ := hright y hy
    rw [← hservice, ← hregion, hs.client_eq hx hy hthread hkey]
    exact ⟨hservice', hregion'⟩
  · intro hdistinct x hx
    -- the call the client was made for had the same name
    obtain ⟨-, hkey, hmem⟩ := hs.cached x.thread x.key x.client (hs.handed x hx)
    exact hdistinct _ hmem x hx rfl hkey

theorem inv_run {awsRegion : Option Str} {calls : List Call} {s : State}
    (hrun : (machine awsRegion).run .init calls = some s) : Inv s :=
  Machine.run_invariant' Inv.step inv_init hrun

/-- **In every interleaving two calls return the same client exactly if one thread has made both
under one name; and every client is for the service and region that was asked exactly if no thread
has asked for two of them under one name.** -/
theorem clients_confined (awsRegion : Option Str) (calls : List Call) (s : State)
    (hrun : (machine awsRegion).run .init calls = some s) :
    (∀ x ∈ s.handed, ∀ y ∈ s.handed,
      x.client.id = y.client.id ↔ x.thread = y.thread ∧ x.key = y.key) ∧
      ((∀ x ∈ s.handed, x.Right) ↔ Distinct s.handed) := by
  have hs := inv_run hrun
  refine ⟨?_, hs.right_iff⟩
  intro x hx y hy
  refine ⟨?_, ?_⟩
  · exact hs.unique _ _ _ _ _ _ (hs.handed x hx) (hs.handed y hy)
  · rintro ⟨hthread, hkey⟩
    rw [hs.client_eq hx hy hthread hkey]

/-- Two threads ask for S3; one of them for two things with one name. -/
def sharedName : List Call :=
  [⟨0, "s3".toList, none, true⟩, ⟨1, "s3".toList, none, true⟩,
    ⟨0, "iot-data".toList, some "eu-west-1".toList, true⟩,
    ⟨0, "iot".toList, some "data-eu-west-1".toList, true⟩]

/-- The last call gets the client of the one before. -/
theorem clients_confined_sharedName : ∃ s, (machine none).run .init sharedName = some s ∧
    s.handed.map (fun x => (x.thread, x.client.id)) = [(0, 0), (1, 1), (0, 2), (0, 2)] ∧
    ¬ Distinct s.handed := by
  obtain ⟨s, hrun, hids, hmem⟩ : ∃ s, (machine none).run .init sharedName = some s ∧
      s.handed.map (fun x => (x.thread, x.client.id)) = [(0, 0), (1, 1), (0, 2), (0, 2)] ∧
      ⟨0, "iot".toList, "data-eu-west-1".toList, 2, "iot-data".toList, "eu-west-1".toList⟩ ∈
        s.handed :=
    ⟨_, rfl, rfl, by decide⟩
  refine ⟨s, hrun, hids, ?_⟩
  intro hdistinct
  obtain ⟨hservice, -⟩ := (clients_confined none sharedName s hrun).2.mpr hdistinct _ hmem
  revert hservice
  decide

/-! ## Names -/

/-- Neither hyphens nor underscores. -/
def Plain (service : Str) : Prop := '-' ∉ service ∧ '_' ∉ service

theorem underscored_inj {c d : Char} (hc : c ≠ '_') (hd : d ≠ '_')
    (h : underscored c = underscored d) : c = d := by
  unfold underscored at h
  split at h <;> split at h
  · next hc' hd' => exact hc'.trans hd'.symm
  · exact absurd h.symm hd
  · exact absurd h hc
  · exact h

theorem map_underscored_inj {s t : Str} (hs : '_' ∉ s) (ht : '_' ∉ t)
    (h : s.map underscored = t.map underscored) : s = t := by
  induction s generalizing t with
  | nil => simpa using h.symm
  | cons c s ih =>
    cases t with
    | nil => simp at h
    | cons d t =>
      simp only [List.map_cons, List.cons.injEq] at h
      simp only [List.mem_cons, not_or] at hs ht
      rw [underscored_inj (Ne.symm hs.1) (Ne.symm ht.1) h.1, ih hs.2 ht.2 h.2]

theorem Plain.not_mem {service : Str} (h : Plain service) : '_' ∉ service.map underscored := by
  intro hmem
  obtain ⟨c, hc, heq⟩ := List.mem_map.mp hmem
  unfold underscored at heq
  split at heq
  · next hdash => exact h.1 (hdash ▸ hc)
  · exact h.2 (heq ▸ hc)

/-- The name of a plain service and a region without underscores tells both. -/
theorem cacheKey_inj {service service' region region' : Str} (hservice : Plain service)
    (hservice' : Plain service') (hregion : '_' ∉ region) (hregion' : '_' ∉ region')
    (h : cacheKey service region = cacheKey service' region') :
    service = service' ∧ region = region' := by
  simp only [cacheKey, List.map_append, List.append_cancel_left_eq, List.map_cons] at h
  obtain ⟨hs, hr⟩ := Str.append_cons_inj hservice.not_mem hservice'.not_mem h
  exact ⟨map_underscored_inj hservice.2 hservice'.2 hs, map_underscored_inj hregion hregion' hr⟩

/-- Threads that ask for plain services, in regions without underscores, get what they ask for. -/
theorem clients_right_of_plain {awsRegion : Option Str} {calls : List Call} {s : State}
    (hrun : (machine awsRegion).run .init calls = some s)
    (hplain : ∀ x ∈ s.handed, Plain x.service ∧ '_' ∉ x.region) : ∀ x ∈ s.handed, x.Right := by
  refine (inv_run hrun).right_iff.mpr ?_
  intro x hx y hy _ hkey
  exact cacheKey_inj (hplain x hx).1 (hplain y hy).1 (hplain x hx).2 (hplain y hy).2 hkey

end AwsClients

end DjangoBoilerplate
