import Catomicals.Base.IpAddress
import Catomicals.Desktop.AddressInput
import Mathlib.Data.List.TakeWhile

/-!
# Which RPC endpoints the desktop application may reach

An endpoint with public access is checked by the literal address of its host or by the addresses its
name resolves to, as texts. The URL parser and the resolver are parameters.
-/
namespace Catomicals.Desktop

open Base List

inductive RpcNetworkAccess where
  | loopback | privateNetwork | publicNetwork

def metadataHostnames : List String := ["metadata", "metadata.google.internal", "instance-data"]

variable (address : List Char)

/-- The family of an address text: 4, 6, or 0 for anything else. -/
def isIP : ℕ :=
  if (readIpv4 address).isSome then 4 else if (readIpv6 address).isSome then 6 else 0

def ipv4Octets : Option Ipv4 :=
  if isIP address = 4 then readIpv4 address else none

def ipv4Check (check : Ipv4 → Bool) (address : List Char) : Bool :=
  match ipv4Octets address with
  | some octets => check octets
  | none => false

def isIpv4Loopback : List Char → Bool := ipv4Check fun octets => octets.a == 127

def isIpv4Private : List Char → Bool := ipv4Check fun octets =>
  octets.a == 10 || (octets.a == 172 && 16 ≤ octets.b && octets.b ≤ 31)
    || (octets.a == 192 && octets.b == 168)

def isIpv4NonPublic : Bool :=
  ipv4Check (fun octets =>
    octets.a == 0 || isIpv4Loopback address || isIpv4Private address
      || (octets.a == 100 && 64 ≤ octets.b && octets.b ≤ 127)
      || (octets.a == 169 && octets.b == 254) || 224 ≤ octets.a) address

/-- `/^\d{1,3}(?:\.\d{1,3}){3}$/`. -/
def isDottedQuad (text : List Char) : Bool :=
  let parts := pieces '.' text
  parts.length == 4 && parts.all fun part =>
    1 ≤ part.length && part.length ≤ 3 && part.all ((hexDigits.take 10).contains ·)

/-- `Number.parseInt(text, 16)` as bitwise operators read it: 0 without a digit. -/
def parseHex (text : List Char) : ℕ :=
  (readNumber 16 (text.takeWhile (hexDigits.contains ·))).getD 0

section

variable (L : LowerCase) (address : List Char)

def normalizedIpv6 : List Char :=
  (L.toLowerCase address).takeWhile (· ≠ '%')

def mappedIpv4 : Option (List Char) :=
  let normalized := normalizedIpv6 L address
  let start := "::ffff:".toList
  if start.isPrefixOf normalized && isDottedQuad (normalized.drop start.length) then
    let mapped := normalized.drop start.length
    if isIP mapped = 4 then some mapped else none
  else none

def isIpv6Loopback : Bool := normalizedIpv6 L address == "::1".toList

def firstGroup (normalized : List Char) : ℕ :=
  let text := normalized.takeWhile (· ≠ ':')
  parseHex (if text = [] then "0".toList else text)

def isIpv6Private : Bool :=
  firstGroup (normalizedIpv6 L address) &&& 0xfe00 == 0xfc00

def isIpv6NonPublic : Bool :=
  let normalized := normalizedIpv6 L address
  match mappedIpv4 L normalized with
  | some mapped => isIpv4NonPublic mapped
  | none =>
    let first := firstGroup normalized
    normalized == "::".toList || isIpv6Loopback L normalized || isIpv6Private L normalized
      || first &&& 0xffc0 == 0xfe80 || first &&& 0xff00 == 0xff00
      || "2001:db8:".toList.isPrefixOf normalized

/-- Whether an IPv6 text is such, itself or as the IPv4 text it maps. -/
def mappedCheck (check : List Char → Bool) (address : List Char) : Bool :=
  match mappedIpv4 L address with
  | some mapped => check mapped
  | none => false

def isLoopback : Bool :=
  if isIP address = 4 then isIpv4Loopback address
  else if isIP address = 6 then isIpv6Loopback L address || mappedCheck L isIpv4Loopback address
  else false

def isPrivate : Bool :=
  if isIP address = 4 then isIpv4Private address
  else if isIP address = 6 then isIpv6Private L address || mappedCheck L isIpv4Private address
  else false

def isPublic : Bool :=
  if isIP address = 4 then !isIpv4NonPublic address
  else if isIP address = 6 then !isIpv6NonPublic L address
  else false

/-- `replace(/^\[|\]$/g, "")`. -/
def stripBrackets (host : List Char) : List Char :=
  let tail := if host.head? = some '[' then host.drop 1 else host
  if tail.getLast? = some ']' then tail.dropLast else tail

variable (parseUrl : String → Except String Url)

def policyHost (endpoint : Url) : List Char :=
  stripBrackets (L.toLowerCase endpoint.hostname.toList)

def checkedAddresses (resolveHostAddresses : List Char → Except String (List String))
    (hostname : List Char) : Except String (List (List Char)) :=
  if isIP hostname ≠ 0 then .ok [hostname]
  else do
    let addresses ← resolveHostAddresses hostname
    pure (addresses.map String.toList)

def assertRpcEndpointAccess (endpointValue : String) (access : RpcNetworkAccess)
    (resolveHostAddresses : List Char → Except String (List String)) : Except String Unit := do
  let endpoint ← parseUrl endpointValue
  let hostname := policyHost L endpoint
  require (¬(String.ofList hostname ∈ metadataHostnames
      ∨ ".localhost".toList.isSuffixOf hostname)) "RPC endpoint blocked by network policy"
  match access with
  | .loopback =>
    require (hostname = "localhost".toList ∨ isLoopback L hostname) "RPC endpoint must be loopback"
  | .privateNetwork =>
    require (isPrivate L hostname) "RPC endpoint must be an explicit private address"
  | .publicNetwork =>
    let addresses ← checkedAddresses resolveHostAddresses hostname
    require (addresses ≠ [] ∧ ∀ address ∈ addresses, isPublic L address)
      "RPC endpoint resolved to a non-public address"

end

variable {text : List Char} {groups : List ℕ} {ip : Ipv4}

theorem readIpv6_eq_some (h : readIpv6 text = some groups) :
    (∀ c ∈ text, c.toNat < 128) ∧ readIpv6Body (withoutZone text) = some groups := by
  simp only [readIpv6, guard, Option.bind_eq_bind, Option.bind_eq_some_iff] at h
  obtain ⟨_, hascii, _, _, hbody⟩ := h
  split_ifs at hascii with hall
  exact ⟨hall, hbody⟩

theorem readIp_eq_v6 (h : readIp text = some (.v6 groups)) :
    readIpv4 text = none ∧ readIpv6 text = some groups := by
  rw [readIp] at h
  cases hv4 : readIpv4 text with
  | some =>
    simp [hv4] at h
  | none =>
    rw [hv4] at h
    obtain ⟨_, hfound, heq⟩ := Option.map_eq_some_iff.mp h
    cases heq
    exact ⟨rfl, hfound⟩

theorem readIp_eq_v4 (h : readIp text = some (.v4 ip)) : readIpv4 text = some ip := by
  rw [readIp] at h
  cases hv4 : readIpv4 text with
  | some =>
    rw [hv4] at h
    cases h
    rfl
  | none =>
    rw [hv4] at h
    obtain ⟨_, -, heq⟩ := Option.map_eq_some_iff.mp h
    cases heq

theorem isIP_of_readIpv4 (h : readIpv4 text = some ip) : isIP text = 4 := by
  rw [isIP, h]
  rfl

theorem isIP_of_readIpv6 (hv4 : readIpv4 text = none) (h : readIpv6 text = some groups) :
    isIP text = 6 := by
  rw [isIP, hv4, h]
  rfl

theorem isIP_eq_zero (h : isIP text = 0) : readIp text = none := by
  rw [isIP] at h
  rw [readIp]
  cases hv4 : readIpv4 text with
  | some => rw [hv4] at h; cases h
  | none =>
    cases hv6 : readIpv6 text with
    | some => rw [hv4, hv6] at h; cases h
    | none => rfl

theorem isIpv4NonPublic_of_internal (h : readIpv4 text = some ip) (hintl : ip.Internal) :
    isIpv4NonPublic text = true := by
  have hoctets : ipv4Octets text = some ip := by rw [ipv4Octets, if_pos (isIP_of_readIpv4 h), h]
  simp only [isIpv4NonPublic, isIpv4Loopback, isIpv4Private, ipv4Check, hoctets, Bool.or_eq_true,
    Bool.and_eq_true, beq_iff_eq, decide_eq_true_eq]
  rcases hintl with h | rfl | h | h | h | h
  · tauto
  · tauto
  · tauto
  · tauto
  · tauto
  · omega

section

variable (L : LowerCase) {text : List Char}

theorem toLowerCase_of_ascii (h : ∀ c ∈ text, c.toNat < 128) :
    L.toLowerCase text = text.map Char.toLower := by
  rw [L.toLowerCase_eq_map fun c hc => .inl (h c hc)]
  exact map_congr_left fun c hc => LowerCase.asciiLower_of_lt (h c hc)

theorem normalizedIpv6_eq (h : ∀ c ∈ text, c.toNat < 128) :
    normalizedIpv6 L text = withoutZone text := by
  rw [normalizedIpv6, toLowerCase_of_ascii L h, withoutZone]

theorem toLower_toLower {c : Char} (hc : c.toNat < 128) : c.toLower.toLower = c.toLower := by
  have hall : ∀ n < 128, (Char.ofNat n).toLower.toLower = (Char.ofNat n).toLower := by
    decide +kernel
  have h := hall c.toNat hc
  rwa [Char.ofNat_toNat] at h

theorem normalizedIpv6_withoutZone (h : ∀ c ∈ text, c.toNat < 128) :
    normalizedIpv6 L (withoutZone text) = withoutZone text := by
  have hmem : ∀ c ∈ withoutZone text, ∃ d ∈ text, c = d.toLower := by
    intro c hc
    obtain ⟨d, hd, rfl⟩ := mem_map.mp (takeWhile_subset _ hc)
    exact ⟨d, hd, rfl⟩
  have hascii : ∀ c ∈ withoutZone text, c.toNat < 128 := by
    intro c hc
    obtain ⟨d, hd, rfl⟩ := hmem c hc
    exact LowerCase.toLower_lt (h d hd)
  have hlower : (withoutZone text).map Char.toLower = withoutZone text := by
    refine (map_congr_left fun c hc => ?_).trans (map_id _)
    obtain ⟨d, hd, rfl⟩ := hmem c hc
    exact toLower_toLower (h d hd)
  rw [normalizedIpv6_eq L hascii]
  unfold withoutZone at hlower ⊢
  rw [hlower, takeWhile_idem]

end

theorem parseHex_of_readGroup {n : ℕ} (h : readGroup text = some n) :
    text ≠ [] ∧ parseHex text = n := by
  simp only [readGroup, guard, Option.bind_eq_bind, Option.bind_eq_some_iff] at h
  obtain ⟨_, hguard, hnumber⟩ := h
  split_ifs at hguard
  have hall : text.takeWhile (hexDigits.contains ·) = text := by
    rw [takeWhile_eq_self_iff]
    intro c hc
    exact contains_iff_mem.mpr (mem_of_readNumber hnumber c hc)
  refine ⟨ne_nil_of_length_pos (by omega), ?_⟩
  rw [parseHex, hall, hnumber]
  rfl

theorem firstGroup_eq {body : List Char} (h : readIpv6Body body = some groups) :
    firstGroup body = groups.headD 0 := by
  rw [firstGroup]
  rcases readIpv6Body_first h with ⟨hempty, hzero⟩ | hgroup
  · rw [if_pos hempty, hzero]
    decide
  · obtain ⟨hne, hvalue⟩ := parseHex_of_readGroup hgroup
    rw [if_neg hne, hvalue]

/-- The text stands for a loopback, unspecified, private, link-local, carrier-grade NAT or multicast
address. -/
def DenotesInternal (text : List Char) : Prop := ∃ ip, readIp text = some ip ∧ ip.Internal

/-- The mapped address is written with dotted octets behind `::ffff:`. -/
def WrittenDotted (text : List Char) : Prop :=
  ∃ quad, withoutZone text = "::ffff:".toList ++ quad ∧ (readIpv4 quad).isSome

/-- An internal IPv4 address in IPv6 form without dotted octets, or another spelling of `::` or
`::1`. -/
def Disguised (text : List Char) : Prop :=
  ∃ groups, readIp text = some (.v6 groups)
    ∧ ((∃ ip, mappedAddress groups = some ip ∧ ip.Internal ∧ ¬WrittenDotted text)
      ∨ groups = unspecifiedV6 ∧ withoutZone text ≠ "::".toList
      ∨ groups = loopbackV6 ∧ withoutZone text ≠ "::1".toList)

theorem Disguised.denotesInternal (h : Disguised text) : DenotesInternal text := by
  obtain ⟨_, hread, hspel⟩ := h
  refine ⟨_, hread, ?_⟩
  rcases hspel with ⟨ip, hmapped, hintl, -⟩ | ⟨hzero, -⟩ | ⟨hone, -⟩
  · exact .inr (.inr (.inr (.inr (.inr ⟨ip, hmapped, hintl⟩))))
  · exact .inl hzero
  · exact .inr (.inl hone)

section

variable (L : LowerCase)

theorem mappedIpv4_of_dotted {quad : List Char} (hascii : ∀ c ∈ text, c.toNat < 128)
    (htext : withoutZone text = "::ffff:".toList ++ quad) (hquad : readIpv4 quad = some ip) :
    mappedIpv4 L (withoutZone text) = some quad := by
  obtain ⟨a, b, c, d, hpieces, ha, hb, hc, hd⟩ := readIpv4_eq_some hquad
  have hpart : ∀ part n, readOctet part = some n →
      (1 ≤ part.length && part.length ≤ 3 && part.all ((hexDigits.take 10).contains ·)) = true := by
    intro _ n hpart
    obtain ⟨-, hlower, hupper, hdigits⟩ := readOctet_eq_some hpart
    simp only [hlower, hupper, decide_true, Bool.and_self, Bool.true_and, all_eq_true]
    intro x hx
    exact contains_iff_mem.mpr (hdigits x hx)
  have hdotted : isDottedQuad quad = true := by
    simp only [isDottedQuad, hpieces, all_cons, hpart a _ ha, hpart b _ hb, hpart c _ hc,
      hpart d _ hd]
    rfl
  have hdrop : (withoutZone text).drop "::ffff:".toList.length = quad := by
    rw [htext, drop_left]
  have hstart : "::ffff:".toList.isPrefixOf (withoutZone text) = true := by
    rw [htext, isPrefixOf_iff_prefix]
    exact prefix_append _ _
  simp only [mappedIpv4, normalizedIpv6_withoutZone L hascii, hdrop, hstart, hdotted,
    isIP_of_readIpv4 hquad, Bool.and_self, if_true]

theorem mappedIpv4_eq_some {mapped : List Char} (hascii : ∀ c ∈ text, c.toNat < 128)
    (h : mappedIpv4 L (withoutZone text) = some mapped) :
    ∃ ip, withoutZone text = "::ffff:".toList ++ mapped ∧ readIpv4 mapped = some ip := by
  simp only [mappedIpv4, normalizedIpv6_withoutZone L hascii] at h
  split_ifs at h with hstart hfour
  obtain ⟨rest, hrest⟩ := isPrefixOf_iff_prefix.mp (Bool.and_eq_true_iff.mp hstart).1
  have hdrop : (withoutZone text).drop "::ffff:".toList.length = rest := by
    rw [← hrest, drop_left]
  rw [hdrop] at h hfour
  obtain rfl : rest = mapped := Option.some.inj h
  cases hquad : readIpv4 rest with
  | some ip => exact ⟨ip, hrest.symm, rfl⟩
  | none =>
    rw [isIP, hquad] at hfour
    simp only [Option.isSome_none, Bool.false_eq_true, if_false] at hfour
    split_ifs at hfour
    omega

/-- An internal address is not taken for a public one, unless disguised. -/
theorem isPublic_eq_false (hintl : DenotesInternal text)
    (hplain : ¬Disguised text) : isPublic L text = false := by
  obtain ⟨ip, hread, hip⟩ := hintl
  cases ip with
  | v4 =>
    have hv4 := readIp_eq_v4 hread
    rw [isPublic, if_pos (isIP_of_readIpv4 hv4), isIpv4NonPublic_of_internal hv4 hip]
    rfl
  | v6 groups =>
    obtain ⟨hv4, hv6⟩ := readIp_eq_v6 hread
    obtain ⟨hascii, hbody⟩ := readIpv6_eq_some hv6
    have hsix := isIP_of_readIpv6 hv4 hv6
    suffices hnon : isIpv6NonPublic L text = true by
      rw [isPublic, if_neg (by omega), if_pos hsix, hnon]
      rfl
    rw [isIpv6NonPublic, normalizedIpv6_eq L hascii]
    cases hmapped : mappedIpv4 L (withoutZone text) with
    | some =>
      obtain ⟨ip, htext, hquad⟩ := mappedIpv4_eq_some L hascii hmapped
      rw [htext, readIpv6Body_dotted hquad] at hbody
      cases hbody
      rcases hip with h | h | h | h | h | ⟨_, hip, hintl⟩
      · exact absurd h (by simp [unspecifiedV6])
      · exact absurd h (by simp [loopbackV6])
      · exact absurd h (by simp)
      · exact absurd h (by simp)
      · exact absurd h (by simp)
      · rw [mappedAddress_groups hquad] at hip
        cases hip
        exact isIpv4NonPublic_of_internal hquad hintl
    | none =>
      have hspel : ∀ spelling, (groups, spelling) = (unspecifiedV6, "::".toList)
          ∨ (groups, spelling) = (loopbackV6, "::1".toList) → withoutZone text = spelling := by
        intro _ hcase
        by_contra hne
        rcases hcase with heq | heq
        · obtain ⟨hgroups, rfl⟩ := Prod.mk.inj heq
          exact hplain ⟨groups, hread, .inr (.inl ⟨hgroups, hne⟩)⟩
        · obtain ⟨hgroups, rfl⟩ := Prod.mk.inj heq
          exact hplain ⟨groups, hread, .inr (.inr ⟨hgroups, hne⟩)⟩
      simp only [isIpv6Loopback, isIpv6Private, normalizedIpv6_withoutZone L hascii,
        firstGroup_eq hbody, Bool.or_eq_true, beq_iff_eq]
      rcases hip with h | h | h | h | h | ⟨ip, hip, hintl⟩
      · have hzero := hspel _ (.inl (by rw [h]))
        tauto
      · have hone := hspel _ (.inr (by rw [h]))
        tauto
      · tauto
      · tauto
      · tauto
      · exfalso
        apply hplain
        refine ⟨groups, hread, .inl ⟨ip, hip, hintl, ?_⟩⟩
        rintro ⟨_, htext, hsome⟩
        obtain ⟨_, hquad⟩ := Option.isSome_iff_exists.mp hsome
        simp [mappedIpv4_of_dotted L hascii htext hquad] at hmapped

/-- Its first group is 0, and it is written neither as a mapped address nor as `::` or `::1`. -/
theorem isPublic_of_disguised (h : Disguised text) : isPublic L text = true := by
  obtain ⟨groups, hread, hspel⟩ := h
  obtain ⟨hv4, hv6⟩ := readIp_eq_v6 hread
  obtain ⟨hascii, hbody⟩ := readIpv6_eq_some hv6
  have hfirst : firstGroup (withoutZone text) = 0 := by
    rw [firstGroup_eq hbody]
    rcases hspel with ⟨_, hmapped, -⟩ | ⟨rfl, -⟩ | ⟨rfl, -⟩
    · exact headD_of_mappedAddress hmapped
    · rfl
    · rfl
  have hmapped : mappedIpv4 L (withoutZone text) = none := by
    by_contra hsome
    obtain ⟨mapped, hmapped⟩ := Option.ne_none_iff_exists'.mp hsome
    obtain ⟨ip, htext, hquad⟩ := mappedIpv4_eq_some L hascii hmapped
    rw [htext, readIpv6Body_dotted hquad, Option.some.injEq] at hbody
    subst hbody
    rcases hspel with ⟨_, -, -, hdotted⟩ | ⟨hzero, -⟩ | ⟨hone, -⟩
    · exact hdotted ⟨mapped, htext, by rw [hquad]; rfl⟩
    · exact absurd hzero (by simp [unspecifiedV6])
    · exact absurd hone (by simp [loopbackV6])
  -- A text that is read as other groups is another text.
  have hspelled : ∀ spelling plain, readIpv6Body spelling = some plain →
      (groups = plain → withoutZone text ≠ spelling) → withoutZone text ≠ spelling := by
    rintro _ _ hplain hne rfl
    exact hne (Option.some.inj (hbody.symm.trans hplain)) rfl
  have hzeros : withoutZone text ≠ "::".toList := by
    refine hspelled _ unspecifiedV6 (by decide +kernel) ?_
    rintro rfl
    rcases hspel with ⟨_, habs, -⟩ | ⟨-, hne⟩ | ⟨habs, -⟩
    · cases habs
    · exact hne
    · cases habs
  have hone : withoutZone text ≠ "::1".toList := by
    refine hspelled _ loopbackV6 (by decide +kernel) ?_
    rintro rfl
    rcases hspel with ⟨_, habs, -⟩ | ⟨habs, -⟩ | ⟨-, hne⟩
    · cases habs
    · cases habs
    · exact hne
  have hdoc : "2001:db8:".toList.isPrefixOf (withoutZone text) = false := by
    rw [Bool.eq_false_iff, Ne, isPrefixOf_iff_prefix]
    rintro ⟨rest, hrest⟩
    rw [← hrest] at hfirst
    exact absurd hfirst (show ¬(0x2001 = 0) by decide)
  have hpublic : isIpv6NonPublic L text = false := by
    simp only [isIpv6NonPublic, isIpv6Loopback, isIpv6Private, normalizedIpv6_eq L hascii,
      normalizedIpv6_withoutZone L hascii, hmapped, hfirst, beq_eq_false_iff_ne.mpr hzeros,
      beq_eq_false_iff_ne.mpr hone, hdoc]
    decide
  rw [isPublic, isIP_of_readIpv6 hv4 hv6, hpublic]
  rfl

end

section

variable (L : LowerCase) (parseUrl : String → Except String Url) (endpointValue : String)
  (resolveHostAddresses : List Char → Except String (List String))

/-- Public access is granted only if neither the literal host nor an address it resolves to is
internal. -/
def BlocksInternal : Prop :=
  assertRpcEndpointAccess L parseUrl endpointValue .publicNetwork resolveHostAddresses = .ok () →
    ∀ endpoint addresses, parseUrl endpointValue = .ok endpoint →
      checkedAddresses resolveHostAddresses (policyHost L endpoint) = .ok addresses →
      ¬DenotesInternal (policyHost L endpoint) ∧ ∀ address ∈ addresses, ¬DenotesInternal address

/-- The host is refused by its name. -/
def NamedInternal (hostname : List Char) : Prop :=
  String.ofList hostname ∈ metadataHostnames ∨ ".localhost".toList.isSuffixOf hostname

/-- An address looked at is disguised, and nothing else about the endpoint is noticed. -/
def MissesDisguised : Prop :=
  ∃ endpoint addresses, parseUrl endpointValue = .ok endpoint ∧
    checkedAddresses resolveHostAddresses (policyHost L endpoint) = .ok addresses ∧
    ¬NamedInternal (policyHost L endpoint) ∧ (∃ address ∈ addresses, Disguised address) ∧
    ∀ address ∈ addresses, Disguised address ∨ isPublic L address = true

theorem assertRpcEndpointAccess_public_iff {endpoint : Url} {addresses : List (List Char)}
    (hurl : parseUrl endpointValue = .ok endpoint)
    (haddrs : checkedAddresses resolveHostAddresses (policyHost L endpoint) = .ok addresses) :
    assertRpcEndpointAccess L parseUrl endpointValue .publicNetwork resolveHostAddresses = .ok () ↔
      ¬NamedInternal (policyHost L endpoint) ∧ addresses ≠ [] ∧
        ∀ address ∈ addresses, isPublic L address = true := by
  simp only [assertRpcEndpointAccess, hurl, ok_iff, Except.ok.injEq, exists_eq_left', haddrs,
    NamedInternal]

/-- Internal targets are blocked exactly if no disguised address is missed. -/
theorem blocksInternal_iff :
    BlocksInternal L parseUrl endpointValue resolveHostAddresses
      ↔ ¬MissesDisguised L parseUrl endpointValue resolveHostAddresses := by
  constructor
  · rintro hblocks ⟨endpoint, addresses, hurl, haddrs, hname, ⟨address, hmem, hdisg⟩, hrest⟩
    have hgranted := (assertRpcEndpointAccess_public_iff L parseUrl endpointValue
      resolveHostAddresses hurl haddrs).mpr ⟨hname, ne_nil_of_mem hmem, fun address hmem =>
        (hrest address hmem).elim (isPublic_of_disguised L) id⟩
    exact (hblocks hgranted endpoint addresses hurl haddrs).2 address hmem hdisg.denotesInternal
  · intro hmiss hgranted endpoint addresses hurl haddrs
    obtain ⟨hname, -, hpublic⟩ := (assertRpcEndpointAccess_public_iff L parseUrl endpointValue
      resolveHostAddresses hurl haddrs).mp hgranted
    have hnone : ∀ address ∈ addresses, ¬DenotesInternal address := by
      intro address hmem hintl
      by_cases hdisg : Disguised address
      · exact hmiss ⟨endpoint, addresses, hurl, haddrs, hname, ⟨address, hmem, hdisg⟩,
          fun address hmem => .inr (hpublic address hmem)⟩
      · have hfalse := isPublic_eq_false L hintl hdisg
        simp [hpublic address hmem] at hfalse
    refine ⟨fun hintl => ?_, hnone⟩
    obtain ⟨_, hread, -⟩ := id hintl
    rw [checkedAddresses] at haddrs
    split_ifs at haddrs with hlit
    · cases haddrs
      exact hnone _ (mem_singleton_self _) hintl
    · simp [isIP_eq_zero (not_not.mp hlit)] at hread

end

def mappedLoopbackUrl : Url where
  protocol := "http:"
  hostname := "[::ffff:7f00:1]"
  port := ""
  username := ""
  password := ""
  pathname := "/"
  search := ""
  hash := ""
  origin := "http://[::ffff:7f00:1]"

/-- Public access is granted to the mapped loopback address in hexadecimal groups. -/
theorem not_blocksInternal_mappedLoopback :
    ¬BlocksInternal .plain (fun _ => .ok mappedLoopbackUrl) "http://[::ffff:127.0.0.1]/"
      (fun _ => .ok []) := by
  intro hblocks
  have hgranted : assertRpcEndpointAccess .plain (fun _ => .ok mappedLoopbackUrl)
      "http://[::ffff:127.0.0.1]/" .publicNetwork (fun _ => .ok []) = .ok () := by
    decide +kernel
  have hread : readIp (policyHost .plain mappedLoopbackUrl)
      = some (.v6 [0, 0, 0, 0, 0, 0xffff, 0x7f00, 1]) := by
    decide +kernel
  have hintl : DenotesInternal (policyHost .plain mappedLoopbackUrl) :=
    ⟨_, hread, .inr (.inr (.inr (.inr (.inr ⟨⟨127, 0, 0, 1⟩, rfl, .inl rfl⟩))))⟩
  have hlit : checkedAddresses (fun _ => .ok []) (policyHost .plain mappedLoopbackUrl)
      = .ok [policyHost .plain mappedLoopbackUrl] := by
    decide +kernel
  exact (hblocks hgranted _ _ rfl hlit).1 hintl

end Catomicals.Desktop
