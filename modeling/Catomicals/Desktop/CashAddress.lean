import Catomicals.ChainBitcoinCash.CashAddr
import Catomicals.Desktop.BitcoinAddress

/-!
# CashAddr texts of the desktop application

The CashAddr parser, the entry point of the address parsers, and how it agrees with the parser of
the `chain-bitcoin-cash` crate. The parsers of other chains are a parameter.
-/
namespace Catomicals.Desktop

open Base Domain ChainBitcoinCash LowerCase List

def charset : List Char := "qpzry9x8gf2tvdw0s3jn54khce6mua7l".toList

def hashLengths : List ℕ := [20, 24, 28, 32, 40, 48, 56, 64]

def expectedPrefix (descriptor : NetworkDescriptor) : Except AddressParseError String :=
  match descriptor.chainNetwork with
  | .bitcoinCash .mainnet => .ok "bitcoincash"
  | .bitcoinCash .testnet3 | .bitcoinCash .testnet4 | .bitcoinCash .chipnet
  | .bitcoinCash .scalenet => .ok "bchtest"
  | .bitcoinCash .regtest => .ok "bchreg"
  | _ => .error ⟨.invalidDescriptor, "unsupported chain or network descriptor"⟩

/-- The register of `cashaddrPolymod`, on integers without a width. -/
def cashaddrCode : Checksum where
  symbols := 8
  generators := [0x98f2bc8e61, 0x79b76d99e2, 0xf33e5fb3c4, 0xae2eabe2a8, 0x1e4f43e470]
  symbols_pos := checksum.symbols_pos
  generators_lt := by decide

def cashaddrPolymod (values : List ℕ) : ℕ := cashaddrCode.run 1 values ^^^ 1

def cashaddrPrefixWords (pre : List Char) : List ℕ := pre.map (·.toNat &&& 31)

def lastIndexOf (c : Char) (s : List Char) : Option ℕ :=
  (s.reverse.idxOf? c).map (s.length - 1 - ·)

def cashAddressType (version : ℕ) : Option AddressType :=
  match version >>> 3 with
  | 0 => some .p2pkh
  | 1 => some .p2sh
  | 2 => some .tokenP2pkh
  | 3 => some .tokenP2sh
  | _ => none

section

variable (L : LowerCase)

def parseCashAddress (descriptor : NetworkDescriptor) (value : String)
    (options : AddressParseOptions) : Except AddressParseError ParsedAddress := do
  let normalized := L.toLowerCase value.toList
  let separator := normalized.idxOf? ':'
  require (¬(separator = none ∧ ¬options.allowPrefixlessCashAddr))
    ⟨.missingPrefix, "CashAddr prefix is required"⟩
  require (¬(separator = some 0 ∨ separator ≠ none ∧ separator ≠ lastIndexOf ':' normalized))
    ⟨.invalidEncoding, "CashAddr must contain exactly one prefix separator"⟩
  let expected ← expectedPrefix descriptor
  let pre := (separator.map normalized.take).getD expected.toList
  require (pre = expected.toList)
    ⟨.wrongNetwork, "expected " ++ expected ++ " CashAddr prefix"⟩
  let encoded := (separator.map fun i => normalized.drop (i + 1)).getD normalized
  require (9 ≤ utf16Length (String.ofList encoded))
    ⟨.invalidLength, "CashAddr payload is too short"⟩
  let words ← orError (encoded.mapM (charset.idxOf? ·))
    ⟨.invalidEncoding, "CashAddr contains an invalid character"⟩
  require (cashaddrPolymod (cashaddrPrefixWords pre ++ 0 :: words) = 0)
    ⟨.badChecksum, "invalid CashAddr checksum"⟩
  let body ← convertBits (words.take (words.length - 8)) 5 8 false
  require (2 ≤ body.length) ⟨.invalidLength, "CashAddr body is too short"⟩
  let version := body.headD 0
  require (version &&& 0x80 = 0)
    ⟨.unsupportedAddressType, "reserved CashAddr version bit is set"⟩
  let hash := body.drop 1
  require (some hash.length = hashLengths[version &&& 0x07]?)
    ⟨.invalidLength, "CashAddr hash length does not match its version"⟩
  let addressType ← orError (cashAddressType version)
    ⟨.unsupportedAddressType, "unsupported CashAddr address type"⟩
  require (¬((addressType = .tokenP2pkh ∨ addressType = .tokenP2sh) ∧ ¬options.allowCashTokens))
    ⟨.unsupportedAddressType, "token-aware CashAddr capability is disabled"⟩
  pure ⟨descriptor.chainId, descriptor.chainNetwork, .cashaddr, addressType,
    String.ofList (pre ++ ':' :: encoded), bytesToHex hash, none⟩

variable (base58 : Base58) (sha256 : Bytes → Bytes32)
  (parseOther : NetworkDescriptor → String → Except AddressParseError ParsedAddress)

def parseAddress (descriptor : NetworkDescriptor) (value : String)
    (options : AddressParseOptions) : Except AddressParseError ParsedAddress := do
  assertDescriptor descriptor
  assertAddressInput value
  assertChainAddressLength descriptor value
  let isBitcoinBech32 :=
    (descriptor.chainId = .bitcoin ∨ descriptor.chainId = .fractalBitcoin) ∧ hasSegwitPrefix value
  if isBitcoinBech32 ∨ descriptor.chainId ∈ [ChainId.bitcoinCash, .kaspa, .chia] then
    assertNotMixedCase value
  match descriptor.chainId with
  | .bitcoin | .fractalBitcoin | .bsv => parseBitcoinFamilyAddress L base58 sha256 descriptor value
  | .bitcoinCash => parseCashAddress L descriptor value options
  | .kaspa | .chia | .ergo => parseOther descriptor value

end

def kindType : AddressKind → AddressType
  | .p2pkh => .p2pkh
  | .p2sh => .p2sh

theorem expectedPrefix_eq (network : BitcoinCashNetwork) :
    expectedPrefix (.of (.bitcoinCash network)) = .ok (networkPrefix network) := by
  cases network <;> rfl

theorem cashaddrPolymod_eq_zero {values : List ℕ} :
    cashaddrPolymod values = 0 ↔ checksum.run 1 values = 1 :=
  Nat.xor_eq_zero_iff

variable {c : Char} {data : List ℕ}

theorem lastIndexOf_append_cons {pre rest : List Char} (h : c ∉ rest) :
    lastIndexOf c (pre ++ c :: rest) = some pre.length := by
  have hreverse : (pre ++ c :: rest).reverse = rest.reverse ++ c :: pre.reverse := by simp
  rw [lastIndexOf, hreverse, idxOf?_append_cons (mt mem_reverse.mp h)]
  simp

/-- Both separators are the same one if only the payload follows the first. -/
theorem lastIndexOf_eq_iff {pre rest : List Char} :
    some pre.length = lastIndexOf c (pre ++ c :: rest) ↔ c ∉ rest := by
  constructor
  · intro h hmem
    obtain ⟨after, before, hrest, hafter⟩ := eq_append_cons_of_mem (mem_reverse.mpr hmem)
    have hsplit : pre ++ c :: rest = (pre ++ c :: before.reverse) ++ c :: after.reverse := by
      rw [← reverse_reverse rest, hrest]
      simp
    rw [hsplit, lastIndexOf_append_cons (mt mem_reverse.mp hafter)] at h
    simp at h
  · intro h
    exact (lastIndexOf_append_cons h).symm

theorem separator_iff (network : BitcoinCashNetwork) (text payload : List Char) :
    ¬(text.idxOf? ':' = some 0
          ∨ text.idxOf? ':' ≠ none ∧ text.idxOf? ':' ≠ lastIndexOf ':' text)
        ∧ ((text.idxOf? ':').map text.take).getD (networkPrefix network).toList
          = (networkPrefix network).toList
        ∧ ((text.idxOf? ':').map fun i => text.drop (i + 1)).getD text = payload
      ↔ HasPayload network text payload := by
  obtain ⟨hne, hpref⟩ := networkPrefix_spec network
  by_cases hmem : ':' ∈ text
  · obtain ⟨pre, rest, rfl, hpre⟩ := eq_append_cons_of_mem hmem
    have hdrop : (pre ++ ':' :: rest).drop (pre.length + 1) = rest := by simp
    simp only [idxOf?_append_cons hpre, Option.map_some, Option.getD_some, Option.some.injEq, ne_eq,
      reduceCtorEq, not_false_eq_true, true_and, lastIndexOf_eq_iff, take_left, hdrop]
    constructor
    · rintro ⟨hsep, htake, hpay⟩
      subst htake hpay
      exact ⟨not_not.mp (not_or.mp hsep).2, .inr rfl⟩
    · rintro ⟨hpay, htext⟩
      rcases htext with rfl | htext
      · exact absurd hmem hpay
      · have hsplit := congrArg splitOnce htext
        rw [splitOnce_append hpre, splitOnce_append hpref] at hsplit
        obtain ⟨rfl, rfl⟩ := Prod.mk.inj (Option.some.inj hsplit)
        exact ⟨not_or.mpr ⟨mt length_eq_zero_iff.mp hne, not_not.mpr hpay⟩, rfl, rfl⟩
  · simp only [idxOf?_eq_none_iff.mpr hmem, reduceCtorEq, ne_eq, not_true_eq_false, false_and,
      or_self, not_false_eq_true, Option.map_none, Option.getD_none, true_and]
    constructor
    · intro hpay
      subst hpay
      exact ⟨hmem, .inl rfl⟩
    · rintro ⟨_, htext⟩
      rcases htext with rfl | rfl
      · rfl
      · exact absurd (mem_append_right _ mem_cons_self) hmem

/-- Of the version bytes with a 20-byte hash, 0 and 8 name a plain address. -/
theorem version_iff {v : ℕ} (hv : v < 256) (kind : AddressKind) :
    v &&& 0x80 = 0 ∧ some 20 = hashLengths[v &&& 0x07]? ∧ cashAddressType v = some (kindType kind)
      ↔ v = kind.version := by
  have hall : ∀ v < 256, (v &&& 0x80 = 0 ∧ some 20 = hashLengths[v &&& 0x07]?
      ∧ cashAddressType v = some .p2pkh ↔ v = 0)
        ∧ (v &&& 0x80 = 0 ∧ some 20 = hashLengths[v &&& 0x07]?
          ∧ cashAddressType v = some .p2sh ↔ v = 8) := by
    decide +kernel
  cases kind with
  | p2pkh => exact (hall v hv).1
  | p2sh => exact (hall v hv).2

/-- What the CashAddr parser returns for a plain address of 20 bytes. -/
def ReturnsPlain (parse : Except AddressParseError ParsedAddress)
    (kind : AddressKind) (hash : Bytes20) : Prop :=
  ∃ result, parse = .ok result ∧ result.addressType = kindType kind
    ∧ result.payloadHex = bytesToHex (hash.bytes.map UInt8.toNat)

theorem length_le_utf16Length (chars : List Char) :
    chars.length ≤ utf16Length (String.ofList chars) := by
  rw [utf16Length, String.toList_ofList]
  induction chars with
  | nil => exact Nat.zero_le _
  | cons =>
    rw [map_cons, sum_cons, length_cons]
    split <;> omega

theorem length_of_encodes {words : List ℕ} (hdata : data.length = 21)
    (h : regroup 5 8 false (words.take (words.length - 8)) = some data) : words.length = 42 := by
  obtain ⟨-, -, _, _, hunpack⟩ := (regroup_exact (by decide)).mp h
  have hlengths := congrArg length hunpack
  simp only [length_append, length_unpack, length_take, length_replicate, hdata] at hlengths
  omega

theorem parseCashAddress_plain_iff (L : LowerCase) (network : BitcoinCashNetwork) (value : String)
    (kind : AddressKind) (hash : Bytes20) :
    ReturnsPlain (parseCashAddress L (.of (.bitcoinCash network)) value defaultAddressOptions)
        kind hash
      ↔ Encodes network (L.toLowerCase value.toList)
        (kind.version :: hash.bytes.map UInt8.toNat) := by
  have hhash : ∀ x ∈ hash.bytes.map UInt8.toNat, x < 256 := by
    intro x hx
    obtain ⟨b, -, rfl⟩ := mem_map.mp hx
    exact b.toNat_lt
  set text := L.toLowerCase value.toList with htext
  simp only [ReturnsPlain, parseCashAddress, ← htext, ok_iff, expectedPrefix_eq, Except.ok.injEq,
    exists_eq_left', cashaddrPolymod_eq_zero, convertBits_eq_ok (show 0 < 8 by decide)]
  constructor
  · rintro ⟨_, h, htype, hhex⟩
    obtain ⟨-, hsep, hpre, -, words, hwords, hsum, body, hbody, _, h⟩ := h
    obtain ⟨hhigh, hsize, type, hcash, -, rfl⟩ := h
    obtain ⟨v, rest, rfl⟩ : ∃ v rest, body = v :: rest := exists_cons_of_length_pos (by omega)
    obtain ⟨-, hbytes, -⟩ := (regroup_exact (by decide)).mp hbody
    obtain ⟨hv, hrestbytes⟩ := forall_mem_cons.mp hbytes
    obtain rfl : rest = hash.bytes.map UInt8.toNat := bytesToHex_inj hrestbytes hhash hhex
    have htwenty : (hash.bytes.map UInt8.toNat).length = 20 := by
      rw [length_map, hash.length_eq]
    have hsize : some (hash.bytes.map UInt8.toNat).length = hashLengths[v &&& 0x07]? := hsize
    rw [htwenty] at hsize
    have htype : type = kindType kind := htype
    rw [htype] at hcash
    obtain rfl := (version_iff hv kind).mp ⟨hhigh, hsize, hcash⟩
    rw [hpre] at hsum
    exact ⟨_, words, (separator_iff network text _).mp ⟨hsep, hpre, rfl⟩, hwords, hsum, hbody⟩
  · rintro ⟨payload, words, hpay, hwords, hsum, hbody⟩
    obtain ⟨hsep, hpre, hencoded⟩ := (separator_iff network text payload).mpr hpay
    have hvers := (version_iff (show kind.version < 256 by cases kind <;> decide) kind).mpr rfl
    have htwenty : (hash.bytes.map UInt8.toNat).length = 20 := by
      rw [length_map, hash.length_eq]
    have hwordslength := length_of_encodes (by rw [length_cons, htwenty]) hbody
    have hlong : 9 ≤ utf16Length (String.ofList payload) := by
      have hle := length_le_utf16Length payload
      have hsame := (mapM_eq_some.mp hwords).length_eq
      omega
    refine ⟨_, ⟨?_, hsep, hpre, ?_, words, ?_, ?_, _, hbody, ?_, hvers.1, ?_,
      kindType kind, hvers.2.2, ?_, rfl⟩, rfl, rfl⟩
    · simp [defaultAddressOptions]
    · rw [hencoded]
      exact hlong
    · rw [hencoded]
      exact hwords
    · rw [hpre]
      exact hsum
    · rw [length_cons, htwenty]
      decide
    · rw [drop_one, tail_cons, htwenty]
      exact hvers.2.1
    · cases kind <;> simp [kindType]

variable {network : BitcoinCashNetwork}

/-- The characters of a text that says something are digits, letters or the separator. -/
theorem encodes_range {text : List Char} (h : Encodes network text data) :
    ∀ c ∈ text, 0x30 ≤ c.toNat ∧ c.toNat ≤ 0x7a := by
  obtain ⟨payload, _, ⟨-, htext⟩, hwords, -⟩ := h
  have hpay : ∀ c ∈ payload, 0x30 ≤ c.toNat ∧ c.toNat ≤ 0x7a := by
    have hcset : ∀ c ∈ cashaddrCharset, 0x30 ≤ c.toNat ∧ c.toNat ≤ 0x7a := by decide
    exact fun c hc => hcset c (mem_charset hwords c hc)
  rcases htext with rfl | rfl
  · exact hpay
  · have hpref : ∀ c ∈ (networkPrefix network).toList, 0x30 ≤ c.toNat ∧ c.toNat ≤ 0x7a := by
      cases network <;> decide
    exact forall_mem_append.mpr
      ⟨hpref, forall_mem_cons.mpr ⟨by decide, hpay⟩⟩

theorem encodes_length {text : List Char} (hdata : data.length = 21)
    (h : Encodes network text data) : 0 < text.length ∧ text.length ≤ 54 := by
  obtain ⟨_, _, ⟨-, htext⟩, hwords, -, hbody⟩ := h
  have hlen := (mapM_eq_some.mp hwords).length_eq
  rw [length_of_encodes hdata hbody] at hlen
  rcases htext with rfl | rfl
  · omega
  · have hpref : (networkPrefix network).toList.length ≤ 11 := by cases network <;> decide
    rw [length_append, length_cons]
    omega

variable {chars : List Char}

theorem trim_eq_self (h : ∀ c ∈ chars, isWhiteSpace c = false) : trim chars = chars := by
  have hleft : ∀ l : List Char, (∀ c ∈ l, isWhiteSpace c = false) →
      l.dropWhile isWhiteSpace = l := by
    intro l hl
    cases l with
    | nil => rfl
    | cons c => rw [dropWhile_cons_of_neg (by simp [hl c mem_cons_self])]
  rw [trim, hleft chars h, hleft _ (fun c hc => h c (mem_reverse.mp hc)), reverse_reverse]

theorem utf16Length_eq {value : String} (h : ∀ c ∈ value.toList, c.toNat < 0x10000) :
    utf16Length value = value.toList.length := by
  rw [utf16Length]
  generalize value.toList = chars at h
  induction chars with
  | nil => rfl
  | cons _ _ ih =>
    obtain ⟨hc, hrest⟩ := forall_mem_cons.mp h
    rw [map_cons, sum_cons, if_pos hc, ih hrest, length_cons, Nat.add_comm]

theorem toLower_eq_self_iff (c : Char) : c.toLower = c ↔ c.isUpper = false := by
  by_cases h : c.val ≥ 'A'.val ∧ c.val ≤ 'Z'.val
  · have hupper : c.isUpper = true := decide_eq_true h
    have hlower : c.toLower.val = c.val + 32 := congrArg Char.val (dif_pos h)
    simp [Char.ext_iff, hlower, hupper]
  · have hupper : c.isUpper = false := decide_eq_false h
    simp [show c.toLower = c from dif_neg h, hupper]

theorem toUpper_eq_self_iff (c : Char) : c.toUpper = c ↔ c.isLower = false := by
  have hlower : c.isLower = true ↔ 'a'.val ≤ c.val ∧ c.val ≤ 'z'.val :=
    Bool.and_eq_true_iff.trans (and_congr decide_eq_true_iff decide_eq_true_iff)
  by_cases h : 'a'.val ≤ c.val ∧ c.val ≤ 'z'.val
  · rw [show c.toUpper = _ from dif_pos h, hlower.mpr h]
    simp [Char.ext_iff]
  · simp [show c.toUpper = c from dif_neg h, Bool.eq_false_iff.mpr (mt hlower.mp h)]

/-- A mapping fixes the letters of a text exactly if none is of the other case. -/
theorem letters_eq_map_iff {f : Char → Char} {other : Char → Bool}
    (hf : ∀ c, f c = c ↔ other c = false) (hletter : ∀ c, other c = true → c.isAlpha = true) :
    chars.filter Char.isAlpha = (chars.filter Char.isAlpha).map f ↔ ¬chars.any other := by
  have hmap : chars.filter Char.isAlpha = (chars.filter Char.isAlpha).map f
      ↔ ∀ c ∈ chars.filter Char.isAlpha, f c = c := by
    rw [eq_comm]
    nth_rewrite 2 [← map_id (chars.filter Char.isAlpha)]
    exact map_inj_left
  simp only [hmap, mem_filter, hf, any_eq_true, not_exists, not_and, Bool.not_eq_true]
  constructor
  · intro h c hc
    by_contra hother
    rw [Bool.not_eq_false] at hother
    simp [h c ⟨hc, hletter c hother⟩] at hother
  · intro h c hc
    exact h c hc.1

theorem assertNotMixedCase_eq_ok {value : String} {u : Unit} :
    assertNotMixedCase value = .ok u
      ↔ ¬(value.toList.any Char.isLower ∧ value.toList.any Char.isUpper) := by
  rw [assertNotMixedCase, require_eq_ok,
    letters_eq_map_iff toLower_eq_self_iff fun _ h => Bool.or_eq_true_iff.mpr (.inl h),
    letters_eq_map_iff toUpper_eq_self_iff fun _ h => Bool.or_eq_true_iff.mpr (.inr h)]
  tauto

section

variable (L : LowerCase) (base58 : Base58) (sha256 : Bytes → Bytes32)
  (parseOther : NetworkDescriptor → String → Except AddressParseError ParsedAddress)

structure Acceptable (value : String) : Prop where
  nonempty : value.toList ≠ []
  trimmed : value.toList = trim value.toList
  visible : ∀ c ∈ value.toList, (isWhiteSpace c || isControl c) = false
  short : utf16Length value ≤ 128
  oneCase : ¬(value.toList.any Char.isLower ∧ value.toList.any Char.isUpper)

variable {value : String}

theorem parseAddress_eq_ok {options : AddressParseOptions} {result : ParsedAddress} :
    parseAddress L base58 sha256 parseOther (.of (.bitcoinCash network)) value options = .ok result
      ↔ Acceptable value
        ∧ parseCashAddress L (.of (.bitcoinCash network)) value options = .ok result := by
  have hchain : (NetworkDescriptor.of (.bitcoinCash network)).chainId = .bitcoinCash := rfl
  simp only [parseAddress, hchain, reduceCtorEq, or_self, false_and, mem_cons, true_or,
    or_true, if_true, ok_iff, assertNotMixedCase_eq_ok, assertDescriptor, assertAddressInput,
    assertChainAddressLength]
  constructor
  · rintro ⟨_, ⟨hinput, _⟩, hshort, hcase, hparse⟩
    obtain ⟨hempty, htrim, hvis⟩ := not_or.mp hinput |>.imp id not_or.mp
    refine ⟨⟨hempty, not_not.mp htrim, ?_, hshort, hcase⟩, hparse⟩
    intro c hc
    by_contra hbad
    exact hvis (any_eq_true.mpr ⟨c, hc, Bool.not_eq_false _ ▸ hbad⟩)
  · rintro ⟨h, hparse⟩
    have hvis : ¬(value.toList.any fun c => isWhiteSpace c || isControl c) = true := by
      intro hany
      obtain ⟨c, hc, hbad⟩ := any_eq_true.mp hany
      simp [h.visible c hc] at hbad
    have hshort := h.short
    exact ⟨rfl, ⟨not_or.mpr ⟨h.nonempty, not_or.mpr ⟨not_not.mpr h.trimmed, hvis⟩⟩, by omega⟩,
      hshort, h.oneCase, hparse⟩

variable {L} in
/-- The characters of a text whose lower case is that of an address. -/
theorem lowers_of_encodes (h : Encodes network (L.toLowerCase chars) data) :
    ∀ c ∈ chars, LowersToAscii c := by
  apply (L.toLowerCase_ascii_iff chars).mp
  intro d hd
  have := (encodes_range h d hd).2
  omega

variable {L} in
/-- A text in one case whose lower case is an address's passes all checks. -/
theorem acceptable_of_encodes (hdata : data.length = 21)
    (h : Encodes network (L.toLowerCase value.toList) data)
    (hcase : ¬(value.toList.any Char.isLower ∧ value.toList.any Char.isUpper)) :
    Acceptable value := by
  have hlowers := lowers_of_encodes h
  rw [L.toLowerCase_eq_map hlowers] at h
  have hplain : ∀ c ∈ value.toList,
      (isWhiteSpace c || isControl c) = false ∧ c.toNat < 0x10000 := by
    intro c hc
    have hrange := encodes_range h _ (mem_map_of_mem hc)
    rcases hlowers c hc with hlt | rfl
    · have hall : ∀ n < 128, 0x30 ≤ (asciiLower (Char.ofNat n)).toNat
          ∧ (asciiLower (Char.ofNat n)).toNat ≤ 0x7a →
            (isWhiteSpace (Char.ofNat n) || isControl (Char.ofNat n)) = false := by
        decide +kernel
      have hplain := hall c.toNat hlt
      rw [Char.ofNat_toNat] at hplain
      exact ⟨hplain hrange, by omega⟩
    · decide
  obtain ⟨hpos, hle⟩ := encodes_length hdata h
  rw [length_map] at hpos hle
  refine ⟨ne_nil_of_length_pos hpos, ?_, fun c hc => (hplain c hc).1, ?_, hcase⟩
  · exact (trim_eq_self fun c hc => (Bool.or_eq_false_iff.mp (hplain c hc).1).1).symm
  · rw [utf16Length_eq fun c hc => (hplain c hc).2]
    omega

theorem parseAddress_plain_iff (network : BitcoinCashNetwork) (value : String)
    (kind : AddressKind) (hash : Bytes20) :
    ReturnsPlain (parseAddress L base58 sha256 parseOther (.of (.bitcoinCash network)) value
        defaultAddressOptions) kind hash
      ↔ ¬(value.toList.any Char.isLower ∧ value.toList.any Char.isUpper)
        ∧ Encodes network (L.toLowerCase value.toList)
          (kind.version :: hash.bytes.map UInt8.toNat) := by
  rw [← parseCashAddress_plain_iff]
  constructor
  · rintro ⟨result, hparse, hres⟩
    obtain ⟨hacc, hparse⟩ := (parseAddress_eq_ok L base58 sha256 parseOther).mp hparse
    exact ⟨hacc.oneCase, result, hparse, hres⟩
  · rintro ⟨hcase, hplain⟩
    have henc := (parseCashAddress_plain_iff L network value kind hash).mp hplain
    have hacc := acceptable_of_encodes
      (by rw [length_cons, length_map, hash.length_eq]) henc hcase
    obtain ⟨result, hparse, hres⟩ := hplain
    exact ⟨result, (parseAddress_eq_ok L base58 sha256 parseOther).mpr ⟨hacc, hparse⟩, hres⟩

/-- The desktop application returns a plain 20-byte address for a text. -/
def AcceptsPlain (network : BitcoinCashNetwork) (value : String) : Prop :=
  ∃ kind hash, ReturnsPlain (parseAddress L base58 sha256 parseOther (.of (.bitcoinCash network))
    value defaultAddressOptions) kind hash

/-- Both parsers accept the same texts, with the same kind and hash. -/
structure ParsersAgree (network : BitcoinCashNetwork) (value : String) : Prop where
  accept : AcceptsPlain L base58 sha256 parseOther network value
    ↔ ∃ address, parseCashaddr network value = .ok address
  same : ∀ kind hash address,
    ReturnsPlain (parseAddress L base58 sha256 parseOther (.of (.bitcoinCash network)) value
      defaultAddressOptions) kind hash →
    parseCashaddr network value = .ok address → address.kind = kind ∧ address.hash = hash

theorem returnsPlain_iff_of_ascii (hascii : ∀ c ∈ value.toList, c.toNat < 128)
    (kind : AddressKind) (hash : Bytes20) :
    ReturnsPlain (parseAddress L base58 sha256 parseOther (.of (.bitcoinCash network)) value
        defaultAddressOptions) kind hash
      ↔ parseCashaddr network value = .ok ⟨addressNetwork network, kind, hash⟩ := by
  have hlower : L.toLowerCase value.toList = value.toList.map Char.toLower := by
    rw [L.toLowerCase_eq_map fun c hc => .inl (hascii c hc)]
    exact map_congr_left fun c hc => asciiLower_of_lt (hascii c hc)
  rw [parseAddress_plain_iff, parseCashaddr_eq_ok, hlower]
  constructor
  · rintro ⟨hcase, henc⟩
    exact ⟨hcase, hascii, rfl, henc⟩
  · rintro ⟨hcase, _, _, henc⟩
    exact ⟨hcase, henc⟩

/-- The parsers agree on a text unless it has a Kelvin sign, is not in mixed case and in lower case
encodes a plain address of the network. -/
theorem cashAddrParsers_agree_iff (network : BitcoinCashNetwork) (value : String) :
    ParsersAgree L base58 sha256 parseOther network value
      ↔ ¬(kelvinSign ∈ value.toList
        ∧ ¬(value.toList.any Char.isLower ∧ value.toList.any Char.isUpper)
        ∧ ∃ (kind : AddressKind) (hash : Bytes20), Encodes network (L.toLowerCase value.toList)
            (kind.version :: hash.bytes.map UInt8.toNat)) := by
  have hplain (kind : AddressKind) (hash : Bytes20) :=
    parseAddress_plain_iff L base58 sha256 parseOther network value kind hash
  constructor
  · rintro hagree ⟨hkelvin, hcase, kind, hash, henc⟩
    obtain ⟨address, haddr⟩ := hagree.accept.mp ⟨kind, hash, (hplain kind hash).mpr ⟨hcase, henc⟩⟩
    obtain ⟨-, hascii, -⟩ := parseCashaddr_eq_ok.mp haddr
    exact absurd (hascii kelvinSign hkelvin) (by decide)
  · intro hnot
    -- Whichever parser accepts the text, all of its characters are ASCII.
    have hascii : AcceptsPlain L base58 sha256 parseOther network value →
        ∀ c ∈ value.toList, c.toNat < 128 := by
      rintro ⟨kind, hash, hreturns⟩ c hc
      obtain ⟨hcase, henc⟩ := (hplain kind hash).mp hreturns
      rcases lowers_of_encodes henc c hc with hlt | rfl
      · exact hlt
      · exact absurd ⟨hc, hcase, kind, hash, henc⟩ hnot
    refine ⟨⟨?_, ?_⟩, ?_⟩
    · intro haccepts
      obtain ⟨kind, hash, hreturns⟩ := haccepts
      exact ⟨_, (returnsPlain_iff_of_ascii L base58 sha256 parseOther
        (hascii ⟨kind, hash, hreturns⟩) kind hash).mp hreturns⟩
    · rintro ⟨address, haddr⟩
      obtain ⟨-, hchars, hnet, -⟩ := parseCashaddr_eq_ok.mp haddr
      have heq : address = ⟨addressNetwork network, address.kind, address.hash⟩ := by rw [← hnet]
      rw [heq] at haddr
      exact ⟨_, _, (returnsPlain_iff_of_ascii L base58 sha256 parseOther hchars _ _).mpr haddr⟩
    · intro kind hash _ hreturns haddr
      have hsame := (returnsPlain_iff_of_ascii L base58 sha256 parseOther
        (hascii ⟨kind, hash, hreturns⟩) kind hash).mp hreturns
      obtain rfl := Except.ok.inj (hsame.symm.trans haddr)
      exact ⟨rfl, rfl⟩

/-- The address of the hash of zeros, with a Kelvin sign for its only `k`. -/
def kelvinAddress : String :=
  String.ofList ("qqqqqqqqqqqqqqqqqqqqqqqqqqqqqqqqqqfnh".toList ++ kelvinSign :: "s603".toList)

theorem encodes_kelvinAddress :
    Encodes .mainnet (L.toLowerCase kelvinAddress.toList)
      (AddressKind.p2pkh.version :: (replicate 20 (0 : UInt8)).map
        UInt8.toNat) := by
  have hlowers : ∀ c ∈ kelvinAddress.toList, LowersToAscii c := by decide +kernel
  have htext : kelvinAddress.toList.map asciiLower
      = "qqqqqqqqqqqqqqqqqqqqqqqqqqqqqqqqqqfnhks603".toList := by decide +kernel
  rw [L.toLowerCase_eq_map hlowers, htext]
  exact ⟨_, replicate 34 0 ++ [9, 19, 23, 22, 16, 26, 15, 17], ⟨by decide, .inl rfl⟩,
    by decide +kernel, by decide +kernel, by decide +kernel⟩

/-- The desktop application accepts the address with the Kelvin sign, the crate does not. -/
theorem not_parsersAgree_kelvinAddress :
    ¬ParsersAgree .plain ⟨fun _ => none, fun _ => ""⟩ (fun _ => .zeros)
      (fun _ _ => .error ⟨.invalidEncoding, ""⟩) .mainnet kelvinAddress := by
  intro hagree
  obtain ⟨_, haddr⟩ := hagree.accept.mp ⟨.p2pkh, ⟨replicate 20 0, rfl⟩,
    (parseAddress_plain_iff _ _ _ _ _ _ _ _).mpr ⟨by decide +kernel, encodes_kelvinAddress _⟩⟩
  obtain ⟨-, hascii, -⟩ := parseCashaddr_eq_ok.mp haddr
  exact absurd (hascii kelvinSign (by decide +kernel)) (by decide)

end

end Catomicals.Desktop
