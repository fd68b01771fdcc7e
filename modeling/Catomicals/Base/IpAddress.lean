import Catomicals.Base.Bytes
import Mathlib.Data.List.Basic
import Mathlib.Data.Option.Basic

/-!
# Texts of IP addresses

The texts of IPv4 and IPv6 addresses and the addresses they stand for, with a run of zero groups
left out, with dotted octets at the end, and with a zone.
-/
namespace Catomicals.Base

open List

structure Ipv4 where
  (a b c d : ℕ)
  deriving DecidableEq

inductive IpAddress where
  | v4 (ip : Ipv4)
  | v6 (groups : List ℕ)
  deriving DecidableEq

/-- The pieces of a text between the occurrences of a character. -/
def pieces (separator : Char) : List Char → List (List Char)
  | [] => [[]]
  | c :: text =>
    if c = separator then [] :: pieces separator text
    else ((c :: (pieces separator text).headD []) :: (pieces separator text).tail)

/-- What stands before and after the first double colon. -/
def splitDouble : List Char → Option (List Char × List Char)
  | ':' :: ':' :: rest => some ([], rest)
  | c :: rest => (splitDouble rest).map fun parts => (c :: parts.1, parts.2)
  | [] => none

/-- The hexadecimal digits; the first ten are the decimal ones. -/
def hexDigits : List Char := "0123456789abcdef".toList

def readNumber (base : ℕ) (text : List Char) : Option ℕ :=
  (text.mapM ((hexDigits.take base).idxOf? ·)).map (foldl (fun n digit => n * base + digit) 0)

variable (text : List Char)

def readOctet : Option ℕ := do
  guard (1 ≤ text.length ∧ text.length ≤ 3 ∧ (text.length = 1 ∨ text.head? ≠ some '0'))
  let n ← readNumber 10 text
  guard (n ≤ 255)
  some n

def readIpv4 : Option Ipv4 :=
  match pieces '.' text with
  | [a, b, c, d] => do
    some ⟨← readOctet a, ← readOctet b, ← readOctet c, ← readOctet d⟩
  | _ => none

def readGroup : Option ℕ := do
  guard (1 ≤ text.length ∧ text.length ≤ 4)
  readNumber 16 text

def Ipv4.groups (ip : Ipv4) : List ℕ := [ip.a * 256 + ip.b, ip.c * 256 + ip.d]

/-- The groups of some pieces; the last may be dotted octets where the text ends. -/
def readGroups (atEnd : Bool) : List (List Char) → Option (List ℕ)
  | [] => some []
  | [piece] =>
    (if atEnd then (readIpv4 piece).map Ipv4.groups else none) <|> (readGroup piece).map ([·])
  | piece :: rest => do
    let group ← readGroup piece
    let groups ← readGroups atEnd rest
    some (group :: groups)

/-- The groups of one side of a double colon, which may be empty. -/
def readSide (atEnd : Bool) (text : List Char) : Option (List ℕ) :=
  if text = [] then some [] else readGroups atEnd (pieces ':' text)

def readIpv6Body (body : List Char) : Option (List ℕ) :=
  match splitDouble body with
  | none => do
    let groups ← readGroups true (pieces ':' body)
    guard (groups.length = 8)
    some groups
  | some (left, right) => do
    let before ← readSide false left
    let after ← readSide true right
    guard (before.length + after.length ≤ 7)
    some (before ++ replicate (8 - before.length - after.length) 0 ++ after)

def withoutZone : List Char := (text.map Char.toLower).takeWhile (· ≠ '%')

def isZoneChar (c : Char) : Bool := c.isAlphanum || c == '-' || c == '.' || c == ':'

def readIpv6 : Option (List ℕ) := do
  guard (∀ c ∈ text, c.toNat < 128)
  let zone := text.drop (withoutZone text).length
  guard (zone = [] ∨ 2 ≤ zone.length ∧ (zone.drop 1).all isZoneChar)
  readIpv6Body (withoutZone text)

def readIp : Option IpAddress :=
  (readIpv4 text).map .v4 <|> (readIpv6 text).map .v6

/-- Loopback, unspecified, private, link-local, carrier-grade NAT and multicast addresses. -/
def Ipv4.Internal (ip : Ipv4) : Prop :=
  ip.a = 127 ∨ ip = ⟨0, 0, 0, 0⟩
    ∨ (ip.a = 10 ∨ ip.a = 172 ∧ 16 ≤ ip.b ∧ ip.b ≤ 31 ∨ ip.a = 192 ∧ ip.b = 168)
    ∨ ip.a = 169 ∧ ip.b = 254
    ∨ ip.a = 100 ∧ 64 ≤ ip.b ∧ ip.b ≤ 127
    ∨ 224 ≤ ip.a ∧ ip.a ≤ 239

def unspecifiedV6 : List ℕ := [0, 0, 0, 0, 0, 0, 0, 0]

def loopbackV6 : List ℕ := [0, 0, 0, 0, 0, 0, 0, 1]

/-- The IPv4 address that an IPv4-mapped address stands for. -/
def mappedAddress : List ℕ → Option Ipv4
  | [0, 0, 0, 0, 0, 0xffff, x, y] => some ⟨x / 256, x % 256, y / 256, y % 256⟩
  | _ => none

/-- The address, or the IPv4 address it maps, is of one of these kinds. -/
def InternalV6 (groups : List ℕ) : Prop :=
  groups = unspecifiedV6 ∨ groups = loopbackV6
    ∨ groups.headD 0 &&& 0xfe00 = 0xfc00
    ∨ groups.headD 0 &&& 0xffc0 = 0xfe80
    ∨ groups.headD 0 &&& 0xff00 = 0xff00
    ∨ ∃ ip, mappedAddress groups = some ip ∧ ip.Internal

def IpAddress.Internal : IpAddress → Prop
  | .v4 ip => ip.Internal
  | .v6 groups => InternalV6 groups

theorem pieces_eq_cons (separator : Char) (text : List Char) :
    ∃ rest, pieces separator text = text.takeWhile (· ≠ separator) :: rest := by
  induction text with
  | nil => exact ⟨[], rfl⟩
  | cons c text ih =>
    obtain ⟨rest, hrest⟩ := ih
    rw [pieces]
    by_cases hc : c = separator
    · exact ⟨pieces separator text, by simp [hc]⟩
    · rw [if_neg hc, hrest]
      exact ⟨rest, by simp [hc]⟩

variable {separator : Char} {text : List Char} {ip : Ipv4} {groups : List ℕ}

theorem pieces_of_notMem (h : separator ∉ text) : pieces separator text = [text] := by
  induction text with
  | nil => rfl
  | cons _ _ ih =>
    obtain ⟨hc, htext⟩ := not_or.mp (mt mem_cons.mpr h)
    rw [pieces, if_neg (Ne.symm hc), ih htext]
    rfl

theorem pieces_append {before : List Char} (after : List Char) (h : separator ∉ before) :
    pieces separator (before ++ separator :: after) = before :: pieces separator after := by
  induction before with
  | nil => rw [nil_append, pieces, if_pos rfl]
  | cons _ _ ih =>
    obtain ⟨hc, hpre⟩ := not_or.mp (mt mem_cons.mpr h)
    rw [cons_append, pieces, if_neg (Ne.symm hc), ih hpre]
    rfl

theorem mem_pieces (separator : Char) {c : Char} (hc : c ∈ text) :
    c = separator ∨ ∃ piece ∈ pieces separator text, c ∈ piece := by
  induction text with
  | nil => cases hc
  | cons x text ih =>
    rw [pieces]
    by_cases hx : x = separator
    · rw [if_pos hx]
      rcases mem_cons.mp hc with rfl | hc
      · exact .inl hx
      · rcases ih hc with h | ⟨piece, hpiece, hmem⟩
        · exact .inl h
        · exact .inr ⟨piece, mem_cons_of_mem _ hpiece, hmem⟩
    · rw [if_neg hx]
      obtain ⟨_, hrest⟩ := pieces_eq_cons separator text
      rw [hrest] at ih ⊢
      rcases mem_cons.mp hc with rfl | hc
      · exact .inr ⟨_, mem_cons_self, mem_cons_self⟩
      · rcases ih hc with h | ⟨piece, hpiece, hmem⟩
        · exact .inl h
        · rcases mem_cons.mp hpiece with rfl | hpiece
          · exact .inr ⟨_, mem_cons_self, mem_cons_of_mem _ hmem⟩
          · exact .inr ⟨piece, mem_cons_of_mem _ hpiece, hmem⟩

theorem mem_of_readNumber {base n : ℕ} (h : readNumber base text = some n) :
    ∀ c ∈ text, c ∈ hexDigits.take base := by
  obtain ⟨digits, hdigits, -⟩ := Option.map_eq_some_iff.mp h
  clear h
  induction text generalizing digits with
  | nil => intro c hc; cases hc
  | cons _ _ ih =>
    rw [mapM_cons] at hdigits
    simp only [Option.bind_eq_bind, Option.bind_eq_some_iff] at hdigits
    obtain ⟨_, hdigit, rest, hrest, -⟩ := hdigits
    obtain ⟨hlt, hget, -⟩ := idxOf?_eq_some_iff.mp hdigit
    exact forall_mem_cons.mpr ⟨hget ▸ getElem_mem hlt, ih rest hrest⟩

theorem readOctet_eq_some {n : ℕ} (h : readOctet text = some n) :
    n ≤ 255 ∧ 1 ≤ text.length ∧ text.length ≤ 3 ∧ ∀ c ∈ text, c ∈ hexDigits.take 10 := by
  simp only [readOctet, guard, Option.bind_eq_bind, Option.bind_eq_some_iff] at h
  obtain ⟨_, hlen, _, hm, _, hle, hn⟩ := h
  split_ifs at hlen hle with hbounds hbound
  cases hn
  exact ⟨hbound, hbounds.1, hbounds.2.1, mem_of_readNumber hm⟩

section

variable (h : readIpv4 text = some ip)
include h

theorem readIpv4_eq_some :
    ∃ a b c d, pieces '.' text = [a, b, c, d] ∧ readOctet a = some ip.a ∧ readOctet b = some ip.b
      ∧ readOctet c = some ip.c ∧ readOctet d = some ip.d := by
  rw [readIpv4] at h
  split at h
  · rename_i a b c d hpieces
    simp only [Option.bind_eq_bind, Option.bind_eq_some_iff, Option.some.injEq] at h
    obtain ⟨_, hx, _, hy, _, hz, _, hw, rfl⟩ := h
    exact ⟨a, b, c, d, hpieces, hx, hy, hz, hw⟩
  · cases h

theorem mem_of_readIpv4 : ∀ c ∈ text, c = '.' ∨ c ∈ hexDigits.take 10 := by
  obtain ⟨_, _, _, _, hpieces, ha, hb, hc, hd⟩ := readIpv4_eq_some h
  intro x hx
  rcases mem_pieces '.' hx with hdot | ⟨_, hpiece, hmem⟩
  · exact .inl hdot
  · rw [hpieces] at hpiece
    simp only [mem_cons, not_mem_nil, or_false] at hpiece
    right
    rcases hpiece with rfl | rfl | rfl | rfl
    · exact (readOctet_eq_some ha).2.2.2 x hmem
    · exact (readOctet_eq_some hb).2.2.2 x hmem
    · exact (readOctet_eq_some hc).2.2.2 x hmem
    · exact (readOctet_eq_some hd).2.2.2 x hmem

theorem colon_notMem_of_readIpv4 : ':' ∉ text := by
  intro hmem
  rcases mem_of_readIpv4 h ':' hmem with hdot | hdigit
  · exact absurd hdot (by decide)
  · exact absurd hdigit (by decide)

theorem mappedAddress_groups : mappedAddress ([0, 0, 0, 0, 0, 0xffff] ++ ip.groups) = some ip := by
  obtain ⟨_, _, _, _, _, _, hb, _, hd⟩ := readIpv4_eq_some h
  have hb := (readOctet_eq_some hb).1
  have hd := (readOctet_eq_some hd).1
  obtain ⟨a, b, c, d⟩ := ip
  show some (Ipv4.mk ((a * 256 + b) / 256) ((a * 256 + b) % 256) ((c * 256 + d) / 256)
    ((c * 256 + d) % 256)) = _
  have hb : b < 256 := Nat.lt_succ_of_le hb
  have hd : d < 256 := Nat.lt_succ_of_le hd
  congr 2 <;> omega

end

theorem headD_of_mappedAddress (h : mappedAddress groups = some ip) : groups.headD 0 = 0 := by
  unfold mappedAddress at h
  split at h
  · rfl
  · cases h

theorem readIpv6Body_dotted {quad : List Char} (h : readIpv4 quad = some ip) :
    readIpv6Body ("::ffff:".toList ++ quad) = some ([0, 0, 0, 0, 0, 0xffff] ++ ip.groups) := by
  have hsplit : splitDouble ("::ffff:".toList ++ quad) = some ([], "ffff:".toList ++ quad) := rfl
  have hpieces : pieces ':' ("ffff:".toList ++ quad) = ["ffff".toList, quad] := by
    rw [← pieces_of_notMem (colon_notMem_of_readIpv4 h)]
    exact pieces_append quad (show ':' ∉ "ffff".toList by decide)
  have hfirst : readGroup "ffff".toList = some 0xffff := by decide
  have hgroups : readGroups true ["ffff".toList, quad] = some (0xffff :: ip.groups) := by
    rw [readGroups, hfirst, readGroups, if_pos rfl, h]
    · rfl
    · simp
  have hside : readSide true ("ffff:".toList ++ quad) = some (0xffff :: ip.groups) := by
    rw [readSide, if_neg (by simp), hpieces, hgroups]
  rw [readIpv6Body, hsplit]
  simp only [hside]
  rfl

theorem takeWhile_append_separator (left rest : List Char) :
    (left ++ separator :: rest).takeWhile (· ≠ separator) = left.takeWhile (· ≠ separator) := by
  induction left with
  | nil => simp
  | cons c _ ih =>
    by_cases hc : c = separator
    · simp [hc]
    · simpa [hc] using ih

theorem splitDouble_eq_some {body left right : List Char}
    (h : splitDouble body = some (left, right)) : body = left ++ ':' :: ':' :: right := by
  induction body using splitDouble.induct generalizing left with
  | case1 =>
    obtain ⟨rfl, rfl⟩ := Prod.mk.inj (Option.some.inj h)
    rfl
  | case2 _ _ hne ih =>
    rw [splitDouble] at h
    · obtain ⟨⟨_, _⟩, hparts, heq⟩ := Option.map_eq_some_iff.mp h
      obtain ⟨rfl, rfl⟩ := Prod.mk.inj heq
      rw [ih hparts]
      rfl
    · exact hne
  | case3 => cases h

theorem readGroups_cons_cons {atEnd : Bool} {piece next : List Char} {rest : List (List Char)}
    (h : readGroups atEnd (piece :: next :: rest) = some groups) :
    ∃ group more, readGroup piece = some group ∧ groups = group :: more := by
  rw [readGroups] at h
  · simp only [Option.bind_eq_bind, Option.bind_eq_some_iff, Option.some.injEq] at h
    obtain ⟨group, hgroup, more, _, hgroups⟩ := h
    exact ⟨group, more, hgroup, hgroups.symm⟩
  · simp

theorem readGroups_inner_cons {piece : List Char} {rest : List (List Char)}
    (h : readGroups false (piece :: rest) = some groups) :
    ∃ group more, readGroup piece = some group ∧ groups = group :: more := by
  cases rest with
  | nil =>
    obtain ⟨group, hgroup, hgroups⟩ := Option.map_eq_some_iff.mp h
    exact ⟨group, [], hgroup, hgroups.symm⟩
  | cons => exact readGroups_cons_cons h

theorem length_readGroups_single {piece : List Char} (h : readGroups true [piece] = some groups) :
    groups.length ≤ 2 := by
  have h : ((readIpv4 piece).map Ipv4.groups <|> (readGroup piece).map ([·])) = some groups := h
  cases hquad : readIpv4 piece with
  | some =>
    rw [hquad] at h
    cases h
    exact Nat.le_refl 2
  | none =>
    rw [hquad] at h
    obtain ⟨_, -, rfl⟩ := Option.map_eq_some_iff.mp h
    exact Nat.le_succ 1

/-- The first group is read in front of the first colon, or zero if nothing stands there. -/
theorem readIpv6Body_first {body : List Char} (h : readIpv6Body body = some groups) :
    body.takeWhile (· ≠ ':') = [] ∧ groups.headD 0 = 0
      ∨ readGroup (body.takeWhile (· ≠ ':')) = some (groups.headD 0) := by
  rw [readIpv6Body] at h
  split at h
  · simp only [guard, Option.bind_eq_bind, Option.bind_eq_some_iff] at h
    obtain ⟨_, hfound, _, hguard, hgroups⟩ := h
    cases hgroups
    split_ifs at hguard with hlen
    obtain ⟨rest, hpieces⟩ := pieces_eq_cons ':' body
    rw [hpieces] at hfound
    cases rest with
    | nil =>
      have := length_readGroups_single hfound
      omega
    | cons =>
      obtain ⟨group, more, hgroup, rfl⟩ := readGroups_cons_cons hfound
      exact .inr hgroup
  · rename_i left right hsplit
    simp only [guard, Option.bind_eq_bind, Option.bind_eq_some_iff] at h
    obtain ⟨_, hpre, after, _, _, hguard, hgroups⟩ := h
    split_ifs at hguard
    cases hgroups
    rw [splitDouble_eq_some hsplit, takeWhile_append_separator]
    rw [readSide] at hpre
    split_ifs at hpre with hleft
    · -- Nothing stands in front of the double colon, and at least one group was left out.
      cases hpre
      left
      subst hleft
      refine ⟨rfl, ?_⟩
      obtain ⟨_, hn⟩ := Nat.exists_eq_succ_of_ne_zero (show 8 - 0 - after.length ≠ 0 by omega)
      rw [length_nil, hn]
      rfl
    · obtain ⟨_, hpieces⟩ := pieces_eq_cons ':' left
      rw [hpieces] at hpre
      obtain ⟨_, _, hgroup, rfl⟩ := readGroups_inner_cons hpre
      exact .inr hgroup

end Catomicals.Base
