import DjangoBoilerplate.Decimals
import DjangoBoilerplate.NetMasks
import Mathlib.Data.List.TakeDrop

/-!
# Addresses and networks

What the `ipaddress` module of Python reads as an address or as a network. An IPv4 address has one
text (`readV4Int_eq_some`). A network may be written with the length of its mask, with the mask or
with the mask of the other bits, and stands for a block of addresses (`readNetwork_text`).

Where the module raises a `ValueError`, the functions give `none`.
-/

namespace DjangoBoilerplate

namespace IpAddress

open NetMasks

/-- The version of the protocol. -/
inductive Version : Type where
  | v4
  | v6
  deriving DecidableEq

/-- `max_prefixlen` -/
def Version.bits : Version → ℕ
  | .v4 => 32
  | .v6 => 128

/-- An address. -/
structure Address : Type where
  /-- `version` -/
  version : Version
  /-- `_ip` -/
  value : ℕ
  /-- it has so many bits -/
  value_lt : value < 2 ^ version.bits
  /-- `scope_id` -/
  scope : Option Str
  /-- only IPv6 has one -/
  scope_v4 : version = .v4 → scope = none
  deriving DecidableEq

/-! ## Texts of addresses -/

/-- The number with these digits. -/
def fromDigits (b : ℕ) (ds : List ℕ) : ℕ := ds.foldl (fun n d => n * b + d) 0

/-- `_parse_octet(octet_str)`. -/
def readOctet (s : Str) : Option ℕ :=
  if s = [] ∨ s.all Char.isDigit = false ∨ 3 < s.length then none
  else if s ≠ ['0'] ∧ s.head? = some '0' then none
  else if 255 < Nat.ofDigitChars 10 s 0 then none
  else some (Nat.ofDigitChars 10 s 0)

/-- `IPv4Address._ip_int_from_string(ip_str)`. -/
def readV4Int (s : Str) : Option ℕ :=
  if (s.split '.').length = 4 then ((s.split '.').mapM readOctet).map (fromDigits 256) else none

/-- `_parse_hextet(hextet_str)`. -/
def readHextet (s : Str) : Option ℕ :=
  if s = [] ∨ 4 < s.length then none else (s.mapM hexVal).map (fromDigits 16)

/-- The parts between the colons; an IPv4 address at the end is two of them. -/
def hextets (s : Str) : Option (List Str) :=
  let parts := s.split ':'
  if parts.length < 3 then none
  else
    let last := parts.getLastD []
    if '.' ∈ last then
      (readV4Int last).map fun n => parts.dropLast ++ [hex 0 (n / 2 ^ 16), hex 0 (n % 2 ^ 16)]
    else some parts

/-- The parts between the first and the last that are empty: `skip_index`. -/
def skips (parts : List Str) : List ℕ :=
  (List.range parts.length).filter fun i =>
    decide (1 ≤ i ∧ i + 1 < parts.length) && (parts.getD i []).isEmpty

/-- An empty part at an end, which belongs to the `::`, is left out. -/
def withoutEmpty (parts : List Str) : List Str := if parts = [[]] then [] else parts

/-- The parts before and after the `::`, as `parts_hi` and `parts_lo` count them. -/
def halves (parts : List Str) : Option (List Str × List Str) :=
  match skips parts with
  | [] =>
    if parts.length ≠ 8 ∨ parts.head? = some [] ∨ parts.getLast? = some [] then none
    else some (parts, [])
  | [i] =>
    let high := withoutEmpty (parts.take i)
    let low := withoutEmpty (parts.drop (i + 1))
    if high.head? = some [] ∨ low.getLast? = some [] ∨ 8 ≤ high.length + low.length then none
    else some (high, low)
  | _ => none

/-- The number, with zeros for what the `::` stands for. -/
def joinHalves (high low : List Str) : Option ℕ := do
  let high ← high.mapM readHextet
  let low ← low.mapM readHextet
  return fromDigits (2 ^ 16) (high ++ List.replicate (8 - (high.length + low.length)) 0 ++ low)

/-- `IPv6Address._ip_int_from_string(ip_str)`. -/
def readV6Int (s : Str) : Option ℕ :=
  (hextets s).bind fun parts =>
    if 9 < parts.length then none else (halves parts).bind fun h => joinHalves h.1 h.2

/-- `_split_scope_id(ip_str)`. -/
def splitScope (s : Str) : Option (Str × Option Str) :=
  match s.splitOnce '%' with
  | none => some (s, none)
  | some (addr, scope) => if scope = [] ∨ '%' ∈ scope then none else some (addr, some scope)

/-! ## Addresses -/

theorem fromDigits_lt {b : ℕ} {ds : List ℕ} (hds : ∀ d ∈ ds, d < b) :
    fromDigits b ds < b ^ ds.length := by
  induction ds using List.reverseRecOn with
  | nil => exact Nat.one_pos
  | append_singleton ds d ih =>
    have hlt := ih fun d hd => hds d (List.mem_append_left _ hd)
    have hd := hds d (by simp)
    rw [fromDigits, List.foldl_append]
    calc fromDigits b ds * b + d
        < fromDigits b ds * b + b := Nat.add_lt_add_left hd _
      _ = (fromDigits b ds + 1) * b := (Nat.succ_mul _ _).symm
      _ ≤ b ^ ds.length * b := Nat.mul_le_mul_right _ hlt
      _ = b ^ (ds ++ [d]).length := by rw [← Nat.pow_succ, List.length_append]; rfl

theorem readOctet_lt {s : Str} {n : ℕ} (h : readOctet s = some n) : n < 256 := by
  simp only [readOctet] at h
  split at h
  · cases h
  · split at h
    · cases h
    · split at h
      · cases h
      · next hle =>
        obtain rfl := Option.some.inj h
        omega

theorem hexVal_lt {c : Char} {n : ℕ} (h : hexVal c = some n) : n < 16 := by
  simp only [hexVal] at h
  split at h
  · next hdigit =>
    obtain rfl := Option.some.inj h
    exact (digit_lt hdigit).trans (by decide)
  · split at h
    · next hlower =>
      obtain rfl := Option.some.inj h
      have hle : c.toNat ≤ 102 := hlower.2
      omega
    · split at h
      · next hupper =>
        obtain rfl := Option.some.inj h
        have hle : c.toNat ≤ 70 := hupper.2
        omega
      · cases h

/-- What is read of every part has the property of what is read of one. -/
theorem forall_of_mapM {α β : Type} {f : α → Option β} {p : β → Prop} {xs : List α} {ys : List β}
    (hf : ∀ x y, f x = some y → p y) (h : xs.mapM f = some ys) :
    ys.length = xs.length ∧ ∀ y ∈ ys, p y := by
  induction xs generalizing ys with
  | nil =>
    obtain rfl : [] = ys := by simpa using h
    exact ⟨rfl, by simp⟩
  | cons x xs ih =>
    rw [List.mapM_cons] at h
    obtain ⟨y, hy, h⟩ := Option.bind_eq_some_iff.mp h
    obtain ⟨zs, hzs, h⟩ := Option.bind_eq_some_iff.mp h
    obtain rfl := Option.some.inj h
    obtain ⟨hlength, hall⟩ := ih hzs
    exact ⟨by rw [List.length_cons, List.length_cons, hlength],
      List.forall_mem_cons.mpr ⟨hf x y hy, hall⟩⟩

theorem readV4Int_lt {s : Str} {n : ℕ} (h : readV4Int s = some n) : n < 2 ^ 32 := by
  rw [readV4Int] at h
  split at h
  · next hfour =>
    obtain ⟨ds, hds, rfl⟩ := Option.map_eq_some_iff.mp h
    obtain ⟨hlength, hall⟩ := forall_of_mapM (fun _ _ => readOctet_lt) hds
    have hlt := fromDigits_lt hall
    rw [hlength, hfour] at hlt
    exact hlt
  · cases h

theorem readHextet_lt {s : Str} {n : ℕ} (h : readHextet s = some n) : n < 2 ^ 16 := by
  rw [readHextet] at h
  split at h
  · cases h
  · next hshort =>
    obtain ⟨ds, hds, rfl⟩ := Option.map_eq_some_iff.mp h
    obtain ⟨hlength, hall⟩ := forall_of_mapM (fun _ _ => hexVal_lt) hds
    calc fromDigits 16 ds < 16 ^ ds.length := fromDigits_lt hall
      _ ≤ 16 ^ 4 := Nat.pow_le_pow_right (by decide) (by omega)

theorem halves_length {parts high low : List Str} (h : halves parts = some (high, low)) :
    high.length + low.length ≤ 8 := by
  simp only [halves] at h
  split at h
  · split at h
    · cases h
    · next hparts =>
      cases h
      simp only [not_or, not_not] at hparts
      rw [hparts.1]
      exact le_rfl
  · split at h
    · cases h
    · next hparts =>
      cases h
      simp only [not_or] at hparts
      exact (Nat.lt_of_not_le hparts.2.2).le
  · cases h

theorem joinHalves_lt {high low : List Str} {n : ℕ} (hlength : high.length + low.length ≤ 8)
    (h : joinHalves high low = some n) : n < 2 ^ 128 := by
  obtain ⟨hs, hhs, h⟩ := Option.bind_eq_some_iff.mp h
  obtain ⟨ls, hls, h⟩ := Option.bind_eq_some_iff.mp h
  obtain rfl := Option.some.inj h
  obtain ⟨hhigh, hhall⟩ := forall_of_mapM (fun _ _ => readHextet_lt) hhs
  obtain ⟨hlow, hlall⟩ := forall_of_mapM (fun _ _ => readHextet_lt) hls
  have hall : ∀ d ∈ hs ++ List.replicate (8 - (hs.length + ls.length)) 0 ++ ls, d < 2 ^ 16 := by
    intro d hd
    rcases List.mem_append.mp hd with hd | hd
    · rcases List.mem_append.mp hd with hd | hd
      · exact hhall d hd
      · rw [List.eq_of_mem_replicate hd]
        exact Nat.two_pow_pos 16
    · exact hlall d hd
  have height : (hs ++ List.replicate (8 - (hs.length + ls.length)) 0 ++ ls).length = 8 := by
    rw [List.length_append, List.length_append, List.length_replicate]
    omega
  have hlt := fromDigits_lt hall
  rw [height, ← Nat.pow_mul] at hlt
  exact hlt

theorem readV6Int_lt {s : Str} {n : ℕ} (h : readV6Int s = some n) : n < 2 ^ 128 := by
  obtain ⟨parts, -, h⟩ := Option.bind_eq_some_iff.mp h
  split at h
  · cases h
  · obtain ⟨⟨high, low⟩, hhalves, h⟩ := Option.bind_eq_some_iff.mp h
    exact joinHalves_lt (halves_length hhalves) h

/-- `IPv4Address(s)`. -/
def readV4 (s : Str) : Option Address :=
  if '/' ∈ s then none
  else
    match h : readV4Int s with
    | some n => some ⟨.v4, n, readV4Int_lt h, none, fun _ => rfl⟩
    | none => none

/-- `IPv6Address(s)`. -/
def readV6 (s : Str) : Option Address :=
  if '/' ∈ s then none
  else
    match splitScope s with
    | none => none
    | some (addr, scope) =>
      match h : readV6Int addr with
      | some n => some ⟨.v6, n, readV6Int_lt h, scope, nofun⟩
      | none => none

/-- `ip_address(s)`. -/
def readAddress (s : Str) : Option Address := (readV4 s).or (readV6 s)

/-! ## Networks -/

/-- A network. -/
structure Network : Type where
  /-- `network_address` -/
  base : Address
  /-- `prefixlen` -/
  prefixlen : ℕ
  /-- it is not too long -/
  prefixlen_le : prefixlen ≤ base.version.bits
  /-- the other bits of the address are zeros -/
  aligned : base.value &&& netmask base.version.bits prefixlen = base.value

/-- `address in network`. -/
def Network.contains (network : Network) (a : Address) : Bool :=
  decide (a.version = network.base.version) &&
    (a.value &&& netmask network.base.version.bits network.prefixlen == network.base.value)

/-- `_prefix_from_prefix_string(prefixlen_str)`. -/
def readPrefixlen (bits : ℕ) (s : Str) : Option ℕ :=
  if s ≠ [] ∧ s.all Char.isDigit = true ∧ s.length ≤ maxStrDigits ∧
      Nat.ofDigitChars 10 s 0 ≤ bits then
    some (Nat.ofDigitChars 10 s 0)
  else none

/-- `_prefix_from_ip_string(ip_str)`. -/
def readMaskAddress (s : Str) : Option ℕ :=
  (readV4Int s).bind fun n => (prefixOfInt 32 n).or (prefixOfInt 32 (n ^^^ (2 ^ 32 - 1)))

/-- `_make_netmask(arg)`. -/
def readMask : Version → Str → Option ℕ
  | .v4, s => (readPrefixlen 32 s).or (readMaskAddress s)
  | .v6, s => readPrefixlen 128 s

theorem readPrefixlen_le {bits p : ℕ} {s : Str} (h : readPrefixlen bits s = some p) :
    p ≤ bits := by
  rw [readPrefixlen] at h
  split at h
  · next hs =>
    obtain rfl := Option.some.inj h
    exact hs.2.2.2
  · cases h

theorem readMask_le {version : Version} {s : Str} {p : ℕ} (h : readMask version s = some p) :
    p ≤ version.bits := by
  cases version with
  | v4 =>
    rcases Option.or_eq_some_iff.mp h with h | ⟨-, h⟩
    · exact readPrefixlen_le h
    · obtain ⟨n, -, h⟩ := Option.bind_eq_some_iff.mp h
      rcases Option.or_eq_some_iff.mp h with h | ⟨-, h⟩
      · exact (netmask_of_prefixOfInt h).1
      · exact (netmask_of_prefixOfInt h).1
  | v6 => exact readPrefixlen_le h

/-- The network of an address and a mask, without `strict`. -/
def Address.network (a : Address) (p : ℕ) (hp : p ≤ a.version.bits) : Network where
  base :=
    { version := a.version
      value := a.value &&& netmask a.version.bits p
      value_lt := lt_of_le_of_lt Nat.and_le_left a.value_lt
      -- an address that is changed is made anew
      scope := if a.value &&& netmask a.version.bits p = a.value then a.scope else none
      scope_v4 := fun h => by rw [a.scope_v4 h, ite_self] }
  prefixlen := p
  prefixlen_le := hp
  aligned := by rw [Nat.and_assoc, Nat.and_self]

/-- `IPv4Network(s, strict=False)`, or `IPv6Network`, of an address and a mask. -/
def networkOf (a : Address) (mask : Option Str) : Option Network :=
  match mask with
  | none => some (a.network a.version.bits le_rfl)
  | some mask =>
    match h : readMask a.version mask with
    | some p => some (a.network p (readMask_le h))
    | none => none

/-- `_split_optional_netmask(address)`. -/
def splitMask (s : Str) : Option (Str × Option Str) :=
  match s.split '/' with
  | [addr] => some (addr, none)
  | [addr, mask] => some (addr, some mask)
  | _ => none

/-- `ip_network(s, strict=False)`. -/
def readNetwork (s : Str) : Option Network :=
  (splitMask s).bind fun (addr, mask) =>
    ((readV4 addr).bind fun a => networkOf a mask).or
      ((readV6 addr).bind fun a => networkOf a mask)

/-! ## The texts of IPv4 -/

/-- The text of an IPv4 address. -/
def v4Text (n : ℕ) : Str :=
  Str.join ['.'] [decimal (n / 2 ^ 24), decimal (n / 2 ^ 16 % 256), decimal (n / 2 ^ 8 % 256),
    decimal (n % 256)]

theorem all_isDigit_decimal (n : ℕ) : (decimal n).all Char.isDigit = true :=
  List.all_eq_true.mpr fun _ hc => isDigit_of_mem_decimal hc

theorem decimal_ne_nil (n : ℕ) : decimal n ≠ [] := Nat.toDigits_ne_nil

/-- A number below 256 is the octet that its digits are read as, -/
theorem readOctet_decimal {n : ℕ} (hn : n < 256) : readOctet (decimal n) = some n := by
  have hlength : (decimal n).length ≤ 3 :=
    (Nat.length_toDigits_le_iff (by decide) (by decide)).mpr (hn.trans (by decide))
  have hread : Nat.ofDigitChars 10 (decimal n) 0 = n := Nat.ofDigitChars_ten_toDigits
  rw [readOctet, if_neg, if_neg, hread, if_neg (by omega)]
  · rcases decimal_whole n with hzero | ⟨c, ds, hcs, hc, -⟩
    · exact fun h => h.1 hzero
    · rw [hcs]
      exact fun h => hc (Option.some.inj h.2)
  · rw [all_isDigit_decimal]
    rintro (h | h | h)
    · exact decimal_ne_nil n h
    · cases h
    · omega

/-- and no other text is. -/
theorem eq_decimal_of_readOctet {s : Str} {n : ℕ} (h : readOctet s = some n) : s = decimal n := by
  simp only [readOctet] at h
  split at h
  · cases h
  · next hs =>
    simp only [not_or, Bool.not_eq_false] at hs
    split at h
    · cases h
    · next hzero =>
      split at h
      · cases h
      · obtain rfl := Option.some.inj h
        rcases eq_or_ne s ['0'] with rfl | hne
        · rfl
        · have hhead : s.head? ≠ some '0' := fun h => hzero ⟨hne, h⟩
          exact (decimal_ofDigitChars hs.1 hhead (List.all_eq_true.mp hs.2.1)).symm

theorem not_mem_decimal {c : Char} (hc : c.isDigit = false) (n : ℕ) : c ∉ decimal n := by
  intro hmem
  rw [isDigit_of_mem_decimal hmem] at hc
  cases hc

/-- An address has one text. -/
theorem readV4Int_eq_some {s : Str} {n : ℕ} :
    readV4Int s = some n ↔ n < 2 ^ 32 ∧ s = v4Text n := by
  constructor
  · intro h
    refine ⟨readV4Int_lt h, ?_⟩
    rw [readV4Int] at h
    split at h
    · next hfour =>
      obtain ⟨ds, hds, rfl⟩ := Option.map_eq_some_iff.mp h
      obtain ⟨a, b, c, d, hparts⟩ := List.length_eq_four.mp hfour
      have hjoin := Str.join_split '.' s
      rw [hparts] at hds hjoin
      simp only [List.mapM_cons, List.mapM_nil, Option.bind_eq_bind, Option.bind_eq_some_iff,
        Option.pure_def, Option.some.injEq] at hds
      obtain ⟨w, hw, _, ⟨x, hx, _, ⟨y, hy, _, ⟨z, hz, _, rfl, rfl⟩, rfl⟩, rfl⟩, rfl⟩ := hds
      rw [eq_decimal_of_readOctet hw, eq_decimal_of_readOctet hx, eq_decimal_of_readOctet hy,
        eq_decimal_of_readOctet hz] at hjoin
      have hw := readOctet_lt hw
      have hx := readOctet_lt hx
      have hy := readOctet_lt hy
      have hz := readOctet_lt hz
      have hvalue : fromDigits 256 [w, x, y, z] = ((w * 256 + x) * 256 + y) * 256 + z := by
        simp [fromDigits]
      have hfirst : (((w * 256 + x) * 256 + y) * 256 + z) / 2 ^ 24 = w := by omega
      have hsecond : (((w * 256 + x) * 256 + y) * 256 + z) / 2 ^ 16 % 256 = x := by omega
      have hthird : (((w * 256 + x) * 256 + y) * 256 + z) / 2 ^ 8 % 256 = y := by omega
      have hfourth : (((w * 256 + x) * 256 + y) * 256 + z) % 256 = z := by omega
      rw [← hjoin, hvalue, v4Text, hfirst, hsecond, hthird, hfourth]
    · cases h
  · rintro ⟨hn, rfl⟩
    have hsplit : (v4Text n).split '.' = [decimal (n / 2 ^ 24), decimal (n / 2 ^ 16 % 256),
        decimal (n / 2 ^ 8 % 256), decimal (n % 256)] := by
      refine Str.split_join (List.cons_ne_nil _ _) ?_
      simp only [List.mem_cons, List.not_mem_nil, or_false]
      rintro part (rfl | rfl | rfl | rfl)
      all_goals exact not_mem_decimal rfl _
    have hread : [decimal (n / 2 ^ 24), decimal (n / 2 ^ 16 % 256), decimal (n / 2 ^ 8 % 256),
        decimal (n % 256)].mapM readOctet =
          some [n / 2 ^ 24, n / 2 ^ 16 % 256, n / 2 ^ 8 % 256, n % 256] := by
      simp only [List.mapM_cons, List.mapM_nil]
      rw [readOctet_decimal (by omega), readOctet_decimal (by omega), readOctet_decimal (by omega),
        readOctet_decimal (by omega)]
      rfl
    have hvalue : fromDigits 256 [n / 2 ^ 24, n / 2 ^ 16 % 256, n / 2 ^ 8 % 256, n % 256] = n := by
      simp only [fromDigits, List.foldl_cons, List.foldl_nil]
      omega
    rw [readV4Int, hsplit, hread, Option.map_some, hvalue]
    rfl

theorem v4Text_eq (n : ℕ) : v4Text n = decimal (n / 2 ^ 24) ++ '.' ::
    (decimal (n / 2 ^ 16 % 256) ++ '.' :: (decimal (n / 2 ^ 8 % 256) ++ '.' ::
      decimal (n % 256))) := by
  simp [v4Text, Str.join, List.intercalate]

/-- The characters of an address are digits and dots. -/
theorem mem_v4Text {n : ℕ} {c : Char} (hc : c ∈ v4Text n) : c = '.' ∨ c.isDigit = true := by
  simp only [v4Text_eq, List.mem_append, List.mem_cons] at hc
  rcases hc with h | rfl | h | rfl | h | rfl | h
  · exact .inr (isDigit_of_mem_decimal h)
  · exact .inl rfl
  · exact .inr (isDigit_of_mem_decimal h)
  · exact .inl rfl
  · exact .inr (isDigit_of_mem_decimal h)
  · exact .inl rfl
  · exact .inr (isDigit_of_mem_decimal h)

theorem not_mem_v4Text {c : Char} (hdot : c ≠ '.') (hdigit : c.isDigit = false) (n : ℕ) :
    c ∉ v4Text n := by
  intro hmem
  rcases mem_v4Text hmem with h | h
  · exact hdot h
  · rw [hdigit] at h
    cases h

/-- The IPv4 address with this number. -/
def v4Address (n : ℕ) (hn : n < 2 ^ 32) : Address := ⟨.v4, n, hn, none, fun _ => rfl⟩

theorem eq_v4Address {a : Address} (ha : a.version = .v4) :
    ∃ hn, a = v4Address a.value hn := by
  obtain ⟨version, value, hvalue, scope, hscope⟩ := a
  obtain rfl : version = .v4 := ha
  obtain rfl := hscope rfl
  exact ⟨hvalue, rfl⟩

theorem readV4_eq_some {s : Str} {a : Address} :
    readV4 s = some a ↔ ∃ n hn, a = v4Address n hn ∧ s = v4Text n := by
  rw [readV4]
  constructor
  · intro h
    split at h
    · cases h
    · split at h
      · next n hn =>
        obtain rfl := Option.some.inj h
        exact ⟨n, readV4Int_lt hn, rfl, (readV4Int_eq_some.mp hn).2⟩
      · cases h
  · rintro ⟨n, hn, rfl, rfl⟩
    have hread : readV4Int (v4Text n) = some n := readV4Int_eq_some.mpr ⟨hn, rfl⟩
    rw [if_neg (not_mem_v4Text (by decide) (by decide) n)]
    split
    · next m hm =>
      obtain rfl := Option.some.inj (hread.symm.trans hm)
      rfl
    · next hnone => rw [hread] at hnone; cases hnone

/-- What is no IPv4 address is one of IPv6, if it is any. -/
theorem version_of_readV6 {s : Str} {a : Address} (h : readV6 s = some a) : a.version = .v6 := by
  rw [readV6] at h
  split at h
  · cases h
  · split at h
    · cases h
    · split at h
      · obtain rfl := Option.some.inj h
        rfl
      · cases h

theorem readAddress_v4Text {n : ℕ} (hn : n < 2 ^ 32) :
    readAddress (v4Text n) = some (v4Address n hn) := by
  rw [readAddress, readV4_eq_some.mpr ⟨n, hn, rfl, rfl⟩, Option.some_or]

/-! ## The addresses of a network -/

theorem Network.contains_iff {network : Network} {a : Address} :
    network.contains a = true ↔ a.version = network.base.version ∧
      a.value ∈ block network.base.version.bits network.prefixlen network.base.value := by
  obtain ⟨version, value, hvalue, scope, hscope⟩ := a
  rw [Network.contains, Bool.and_eq_true, decide_eq_true_eq, beq_iff_eq]
  refine and_congr_right ?_
  rintro rfl
  rw [← land_netmask_eq_iff network.prefixlen_le hvalue network.base.value_lt, network.aligned]

/-- How the mask of a network may be written. -/
inductive MaskText : Type where
  /-- its length -/
  | length
  /-- the mask -/
  | netmask
  /-- the mask of the other bits -/
  | hostmask

/-- The text of a mask. -/
def MaskText.text (p : ℕ) : MaskText → Str
  | .length => decimal p
  | .netmask => v4Text (NetMasks.netmask 32 p)
  | .hostmask => v4Text (NetMasks.hostmask 32 p)

/-- The mask of the other bits can only be told from a mask if there are some of both kinds. -/
def MaskText.Fits (p : ℕ) (style : MaskText) : Prop :=
  p ≤ 32 ∧ (style = .hostmask → 0 < p ∧ p < 32)

theorem readPrefixlen_decimal {bits p : ℕ} (hp : p ≤ bits) (hbits : bits ≤ 128) :
    readPrefixlen bits (decimal p) = some p := by
  have hread : Nat.ofDigitChars 10 (decimal p) 0 = p := Nat.ofDigitChars_ten_toDigits
  have hlength : (decimal p).length ≤ 3 :=
    (Nat.length_toDigits_le_iff (by decide) (by decide)).mpr (by omega)
  rw [readPrefixlen, hread, if_pos]
  exact ⟨decimal_ne_nil p, all_isDigit_decimal p, hlength.trans (by decide), hp⟩

/-- A mask is no number. -/
theorem readPrefixlen_v4Text (bits n : ℕ) : readPrefixlen bits (v4Text n) = none := by
  rw [readPrefixlen, if_neg]
  rintro ⟨-, hall, -⟩
  have hdot : '.' ∈ v4Text n := by
    rw [v4Text_eq]
    exact List.mem_append_right _ List.mem_cons_self
  exact absurd (List.all_eq_true.mp hall '.' hdot) (by decide)

theorem hostmask_lt (p : ℕ) : hostmask 32 p < 2 ^ 32 := by
  rw [hostmask_eq]
  have hle : 2 ^ (32 - p) ≤ 2 ^ 32 := Nat.pow_le_pow_right (by decide) (Nat.sub_le 32 p)
  have := Nat.two_pow_pos (32 - p)
  omega

/-- However it is written, a mask is read. -/
theorem readMask_text {p : ℕ} {style : MaskText} (h : style.Fits p) :
    readMask .v4 (style.text p) = some p := by
  obtain ⟨hp, hstyle⟩ := h
  cases style with
  | length => rw [readMask, MaskText.text, readPrefixlen_decimal hp (by decide), Option.some_or]
  | netmask =>
    rw [readMask, MaskText.text, readPrefixlen_v4Text, Option.none_or, readMaskAddress,
      readV4Int_eq_some.mpr ⟨netmask_lt 32 p, rfl⟩, Option.bind_some, prefixOfInt_netmask hp,
      Option.some_or]
  | hostmask =>
    obtain ⟨hpos, hlt⟩ := hstyle rfl
    rw [readMask, MaskText.text, readPrefixlen_v4Text, Option.none_or, readMaskAddress,
      readV4Int_eq_some.mpr ⟨hostmask_lt p, rfl⟩, Option.bind_some, prefixOfInt_hostmask hpos hlt,
      Option.none_or, xor_hostmask, prefixOfInt_netmask hp]

theorem splitMask_append_cons {addr mask : Str} (haddr : '/' ∉ addr) (hmask : '/' ∉ mask) :
    splitMask (addr ++ '/' :: mask) = some (addr, some mask) := by
  rw [splitMask, Str.split_append_cons haddr, Str.split_of_not_mem hmask]

theorem not_mem_maskText (p : ℕ) (style : MaskText) : '/' ∉ style.text p := by
  cases style with
  | length => exact not_mem_decimal rfl p
  | netmask => exact not_mem_v4Text (by decide) (by decide) _
  | hostmask => exact not_mem_v4Text (by decide) (by decide) _

/-- **A network that is written with any of its masks is the block of its address.** -/
theorem readNetwork_text {base p : ℕ} (hbase : base < 2 ^ 32) {style : MaskText}
    (hstyle : style.Fits p) :
    readNetwork (v4Text base ++ '/' :: style.text p) =
      some ((v4Address base hbase).network p hstyle.1) := by
  have hsplit := splitMask_append_cons (not_mem_v4Text (c := '/') (by decide) (by decide) base)
    (not_mem_maskText p style)
  have hnetwork : networkOf (v4Address base hbase) (some (style.text p)) =
      some ((v4Address base hbase).network p hstyle.1) := by
    simp only [networkOf]
    split
    · next q hq =>
      obtain rfl := Option.some.inj ((readMask_text hstyle).symm.trans hq)
      rfl
    · next hnone =>
      rw [show (v4Address base hbase).version = .v4 from rfl, readMask_text hstyle] at hnone
      cases hnone
  rw [readNetwork, hsplit, Option.bind_some]
  simp only [readV4_eq_some.mpr ⟨base, hbase, rfl, rfl⟩, Option.bind_some, hnetwork,
    Option.some_or]

end IpAddress

end DjangoBoilerplate
