import Catomicals.Base.Regroup
import Catomicals.Desktop.Url
import Catomicals.Domain.Chains

/-!
# Address texts of the desktop application

The results and errors of the address parsers and their common checks. Lower case is that of the
runtime: of all characters outside ASCII only the Kelvin sign becomes an ASCII text.
-/
namespace Catomicals.Desktop

open Base Domain List

/-- U+212A, whose lower case is the letter `k`. -/
def kelvinSign : Char := Char.ofNat 0x212a

/-- The runtime's lower case mapping. The lower case of a character may depend on what stands around
it. -/
structure LowerCase where
  lowerAt : (before : List Char) → Char → (after : List Char) → List Char
  ascii : ∀ before c after, c.toNat < 128 → lowerAt before c after = [c.toLower]
  kelvin : ∀ before after, lowerAt before kelvinSign after = ['k']
  other : ∀ before c after, 128 ≤ c.toNat → c ≠ kelvinSign →
    ∃ d ∈ lowerAt before c after, 128 ≤ d.toNat

namespace LowerCase

/-- The lower case of what follows the characters `before`. -/
def lowerFrom (L : LowerCase) (before : List Char) : List Char → List Char
  | [] => []
  | c :: after => L.lowerAt before c after ++ lowerFrom L (before ++ [c]) after

def toLowerCase (L : LowerCase) (s : List Char) : List Char := L.lowerFrom [] s

/-- The lower case of a character whose lower case is an ASCII letter. -/
def asciiLower (c : Char) : Char := if c = kelvinSign then 'k' else c.toLower

/-- Whether the lower case of a character is an ASCII text. -/
def LowersToAscii (c : Char) : Prop := c.toNat < 128 ∨ c = kelvinSign

instance (c : Char) : Decidable (LowersToAscii c) := inferInstanceAs (Decidable (_ ∨ _))

variable (L : LowerCase) {c : Char}

theorem asciiLower_of_lt (hc : c.toNat < 128) : asciiLower c = c.toLower := by
  apply if_neg
  intro h
  rw [h] at hc
  exact absurd hc (by decide)

theorem lowerAt_of_lowersToAscii (before after : List Char) (hc : LowersToAscii c) :
    L.lowerAt before c after = [asciiLower c] := by
  rcases hc with hc | rfl
  · rw [L.ascii before c after hc, asciiLower_of_lt hc]
  · rw [L.kelvin, asciiLower, if_pos rfl]

theorem toLower_lt (hc : c.toNat < 128) : c.toLower.toNat < 128 := by
  by_cases h : c.val ≥ 'A'.val ∧ c.val ≤ 'Z'.val
  · have hlower : c.toLower.val = c.val + 32 := congrArg Char.val (dif_pos h)
    have hval : c.toNat = c.val.toNat := rfl
    have hle : c.val.toNat ≤ 90 := by simpa using UInt32.le_iff_toNat_le.mp h.2
    show c.toLower.val.toNat < 128
    rw [hlower, UInt32.toNat_add]
    simp
    omega
  · rwa [show c.toLower = c from dif_neg h]

theorem asciiLower_lt (hc : LowersToAscii c) : (asciiLower c).toNat < 128 := by
  rcases hc with hc | rfl
  · rw [asciiLower_of_lt hc]
    exact toLower_lt hc
  · decide

/-- The lower case of a text is ASCII if that of each character is, and is then taken character by
character. -/
theorem toLowerCase_ascii_iff (s : List Char) :
    (∀ d ∈ L.toLowerCase s, d.toNat < 128) ↔ ∀ c ∈ s, LowersToAscii c := by
  suffices h : ∀ before, (∀ d ∈ L.lowerFrom before s, d.toNat < 128) ↔ ∀ c ∈ s, LowersToAscii c from
    h []
  induction s with
  | nil => intro before; simp [lowerFrom]
  | cons c after ih =>
    intro before
    rw [lowerFrom, forall_mem_append, forall_mem_cons, ih]
    apply and_congr_left'
    constructor
    · intro hlow
      by_contra hc
      have hge : 128 ≤ c.toNat := Nat.le_of_not_lt fun h => hc (.inl h)
      obtain ⟨d, hd, hdge⟩ := L.other before c after hge fun h => hc (.inr h)
      exact absurd (hlow d hd) (by omega)
    · intro hc
      rw [L.lowerAt_of_lowersToAscii before after hc]
      simpa using asciiLower_lt hc

theorem toLowerCase_eq_map {s : List Char} (hs : ∀ c ∈ s, LowersToAscii c) :
    L.toLowerCase s = s.map asciiLower := by
  suffices h : ∀ before, L.lowerFrom before s = s.map asciiLower from h []
  induction s with
  | nil => intro before; rfl
  | cons c after ih =>
    intro before
    obtain ⟨hc, hafter⟩ := forall_mem_cons.mp hs
    rw [lowerFrom, L.lowerAt_of_lowersToAscii before after hc, ih hafter]
    rfl

def plain : LowerCase where
  lowerAt _ c _ := [if c.toNat < 128 then c.toLower else if c = kelvinSign then 'k' else c]
  ascii before c after hc := by rw [if_pos hc]
  kelvin before after := by decide
  other before c after hge hc := by
    refine ⟨c, ?_, hge⟩
    rw [if_neg (by omega), if_neg hc]
    exact mem_singleton_self c

end LowerCase

inductive AddressErrorCode where
  | invalidDescriptor | inputTooLong | invalidEncoding | badChecksum | wrongNetwork
  | unsupportedAddressType | mixedCase | missingPrefix | invalidLength

structure AddressParseError where
  code : AddressErrorCode
  message : String

inductive AddressFormat where
  | base58check | bech32 | bech32m | cashaddr | kaspa | ergoBase58

inductive AddressType where
  | p2pkh | p2sh | p2wpkh | p2wsh | p2tr | witnessUnknown | tokenP2pkh | tokenP2sh | pubkey
  | pubkeyEcdsa | scriptHash | puzzleHash | p2pk | p2s
  deriving DecidableEq

/-- A chain network as the caller names it; the schema version is 1. -/
structure NetworkDescriptor where
  chainId : ChainId
  chainNetwork : ChainNetwork

structure AddressParseOptions where
  (allowPrefixlessCashAddr allowCashTokens : Bool)

structure ParsedAddress where
  chainId : ChainId
  chainNetwork : ChainNetwork
  format : AddressFormat
  addressType : AddressType
  (canonical payloadHex : String)
  witnessVersion : Option ℕ

def defaultAddressOptions : AddressParseOptions where
  allowPrefixlessCashAddr := true
  allowCashTokens := false

/-- A descriptor as the other parts of the application write it. -/
def NetworkDescriptor.of (network : ChainNetwork) : NetworkDescriptor := ⟨network.chainId, network⟩

def assertDescriptor (value : NetworkDescriptor) : Except AddressParseError Unit :=
  require (value.chainNetwork.chainId = value.chainId)
    ⟨.invalidDescriptor, "unsupported chain or network descriptor"⟩

def trim (s : List Char) : List Char :=
  ((s.dropWhile isWhiteSpace).reverse.dropWhile isWhiteSpace).reverse

def isControl (c : Char) : Bool := c.toNat ≤ 0x1f || c.toNat == 0x7f

def assertAddressInput (value : String) : Except AddressParseError Unit := do
  let chars := value.toList
  require (¬(chars = [] ∨ chars ≠ trim chars ∨ chars.any fun c => isWhiteSpace c || isControl c))
    ⟨.invalidEncoding, "address must be non-empty text without whitespace"⟩
  require (utf16Length value ≤ 2048)
    ⟨.inputTooLong, "address exceeds the 2048 character limit"⟩

def addressLengthLimit : ChainId → ℕ
  | .bitcoin | .fractalBitcoin => 90
  | .bitcoinCash => 128
  | .bsv => 64
  | .kaspa | .chia => 90
  | .ergo => 2048

def assertChainAddressLength (descriptor : NetworkDescriptor) (value : String) :
    Except AddressParseError Unit :=
  let limit := addressLengthLimit descriptor.chainId
  require (utf16Length value ≤ limit)
    ⟨.inputTooLong, "address exceeds the " ++ toString limit ++ " character chain limit"⟩

def assertNotMixedCase (value : String) : Except AddressParseError Unit :=
  let letters := value.toList.filter Char.isAlpha
  require (letters = letters.map Char.toLower ∨ letters = letters.map Char.toUpper)
    ⟨.mixedCase, "mixed-case address is not allowed"⟩

def hexDigit (n : ℕ) : Char := "0123456789abcdef".toList.getD n '0'

def bytesToHex (value : List ℕ) : String :=
  String.ofList (value.flatMap fun b => [hexDigit (b / 16), hexDigit (b % 16)])

theorem hexDigit_inj {m n : ℕ} (hm : m < 16) (hn : n < 16)
    (h : hexDigit m = hexDigit n) : m = n := by
  have hall : ∀ m < 16, ∀ n < 16, hexDigit m = hexDigit n → m = n := by decide
  exact hall m hm n hn h

theorem bytesToHex_inj {a b : List ℕ} (ha : ∀ x ∈ a, x < 256) (hb : ∀ x ∈ b, x < 256)
    (h : bytesToHex a = bytesToHex b) : a = b := by
  have hchars := congrArg String.toList h
  rw [bytesToHex, bytesToHex, String.toList_ofList, String.toList_ofList] at hchars
  clear h
  induction a generalizing b with
  | nil =>
    obtain _ | ⟨y, b⟩ := b
    · rfl
    · simp at hchars
  | cons x a ih =>
    obtain _ | ⟨y, b⟩ := b
    · simp at hchars
    · obtain ⟨hx, ha⟩ := forall_mem_cons.mp ha
      obtain ⟨hy, hb⟩ := forall_mem_cons.mp hb
      simp only [flatMap_cons, cons_append, nil_append, cons.injEq] at hchars
      have hhigh := hexDigit_inj (by omega) (by omega) hchars.1
      have hlow := hexDigit_inj (by omega) (by omega) hchars.2.1
      rw [ih ha hb hchars.2.2, show x = y by omega]

/-- `convertBits`, on numbers far below the range of 32-bit operators. -/
def convertBits (data : List ℕ) (fromBits toBits : ℕ) (pad : Bool) :
    Except AddressParseError (List ℕ) := do
  require (∀ value ∈ data, value >>> fromBits = 0)
    ⟨.invalidEncoding, "address contains an out-of-range symbol"⟩
  orError (regroup fromBits toBits pad data)
    ⟨.invalidEncoding, "address has invalid conversion padding"⟩

theorem convertBits_eq_ok {data out : List ℕ} {fromBits toBits : ℕ} (hto : 0 < toBits) :
    convertBits data fromBits toBits false = .ok out
      ↔ regroup fromBits toBits false data = some out := by
  simp only [convertBits, ok_iff, and_iff_right_iff_imp]
  intro h value hvalue
  exact shiftRight_eq_zero.mpr ((regroup_exact hto).mp h |>.1 value hvalue)

end Catomicals.Desktop
