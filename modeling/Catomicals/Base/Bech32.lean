import Catomicals.Base.Bytes
import Catomicals.Base.Checksum

/-!
# Bech32 texts

The texts of BIP-173 and BIP-350: a human-readable part, the separator, and symbols of five bits
that end in a checksum. The two formats differ in the value the checksum has to reach.
-/
namespace Catomicals.Base.Bech32

open List

inductive Variant where
  | bech32 | bech32m
  deriving DecidableEq

/-- The value that the checksum of a valid text reaches. -/
def Variant.const : Variant → ℕ
  | .bech32 => 1
  | .bech32m => 0x2bc830a3

def charset : List Char := "qpzry9x8gf2tvdw0s3jn54khce6mua7l".toList

def checksum : Checksum where
  symbols := 6
  generators := [0x3b6a57b2, 0x26508e6d, 0x1ea119fa, 0x3d4233dd, 0x2a1462b3]
  symbols_pos := by decide
  generators_lt := by decide

def letter (symbol : ℕ) : Char := charset.getD symbol 'q'

def symbol (c : Char) : Option ℕ := charset.idxOf? c

/-- What the human-readable part contributes to the checksum. -/
def hrpExpand (hrp : List Char) : List ℕ :=
  hrp.map (·.toNat >>> 5) ++ 0 :: hrp.map (·.toNat &&& 31)

def hrpRegister (hrp : List Char) : ℕ := checksum.run 1 (hrpExpand hrp)

def encode (variant : Variant) (hrp : List Char) (words : List ℕ) : List Char :=
  hrp ++ '1' :: (words ++ checksum.check (checksum.run (hrpRegister hrp) words) variant.const).map
    letter

/-- Splits a text at its last separator. -/
def splitLast (text : List Char) : Option (List Char × List Char) :=
  let tail := text.reverse.takeWhile (· ≠ '1')
  if tail.length < text.length then
    some (text.take (text.length - tail.length - 1), tail.reverse)
  else none

/-- Reads a text of at most `limit` characters: its prefix in lower case, and its words without the
checksum. -/
def decode (variant : Variant) (limit : ℕ) (text : List Char) : Option (List Char × List ℕ) := do
  guard (text.length ≤ limit)
  guard (∀ c ∈ text, 33 ≤ c.toNat ∧ c.toNat ≤ 126)
  guard (text.map Char.toLower = text ∨ text.map Char.toUpper = text)
  let (hrp, data) ← splitLast (text.map Char.toLower)
  guard (hrp ≠ [] ∧ 6 ≤ data.length)
  let words ← data.mapM symbol
  guard (checksum.run (hrpRegister hrp) words = variant.const)
  pure (hrp, words.take (words.length - 6))

theorem Variant.const_lt (variant : Variant) : variant.const < 2 ^ (5 * checksum.symbols) := by
  cases variant <;> decide

theorem Variant.const_inj {v v' : Variant} (h : v.const = v'.const) : v = v' := by
  cases v <;> cases v' <;> first | rfl | exact absurd h (by decide)

theorem symbol_letter {w : ℕ} (hw : w < 32) : symbol (letter w) = some w := by
  revert hw w
  decide

theorem letter_mem {w : ℕ} (hw : w < 32) : letter w ∈ charset := by
  revert hw w
  decide

theorem charset_ne_separator {c : Char} (hc : c ∈ charset) : c ≠ '1' := by
  revert hc c
  decide

/-- A character of a lower-case text: printable, and its own lower case. -/
def Lower (c : Char) : Prop := 33 ≤ c.toNat ∧ c.toNat ≤ 126 ∧ c.toLower = c

instance (c : Char) : Decidable (Lower c) := inferInstanceAs (Decidable (_ ∧ _))

theorem charset_lower {c : Char} (hc : c ∈ charset) : Lower c := by
  revert hc c
  decide

theorem mapM_symbol_letter {words : List ℕ} (hwords : ∀ w ∈ words, w < 32) :
    (words.map letter).mapM symbol = some words := by
  induction words with
  | nil => rfl
  | cons _ _ ih =>
    obtain ⟨hw, hrest⟩ := forall_mem_cons.mp hwords
    rw [map_cons, mapM_cons, symbol_letter hw, ih hrest]
    rfl

theorem splitLast_append (hrp : List Char) {data : List Char} (hdata : ∀ c ∈ data, c ≠ '1') :
    splitLast (hrp ++ '1' :: data) = some (hrp, data) := by
  have htail : (hrp ++ '1' :: data).reverse.takeWhile (· ≠ '1') = data.reverse := by
    rw [reverse_append, reverse_cons, append_assoc, takeWhile_append_of_pos]
    · simp
    · intro c hc
      simpa using hdata c (mem_reverse.mp hc)
  have hlen : (hrp ++ '1' :: data).length - data.reverse.length - 1 = hrp.length := by
    simp; omega
  rw [splitLast, htail, if_pos (by simp; omega), hlen, take_left, reverse_reverse]

theorem guard_bind {α : Type} {p : Prop} [Decidable p] {f : Unit → Option α} (h : p) :
    (guard p >>= f) = f () := by
  rw [guard, if_pos h]
  rfl

theorem run_append {register : ℕ} {vs ws : List ℕ} :
    checksum.run register (vs ++ ws) = checksum.run (checksum.run register vs) ws :=
  foldl_append

section

variable {hrp : List Char} {words : List ℕ}

theorem decode_encode (variant variant' : Variant) {limit : ℕ} (hhrp : hrp ≠ [])
    (hlower : ∀ c ∈ hrp, Lower c) (hwords : ∀ w ∈ words, w < 32)
    (hlimit : hrp.length + words.length + 7 ≤ limit) :
    decode variant' limit (encode variant hrp words)
      = if variant' = variant then some (hrp, words) else none := by
  set register := checksum.run (hrpRegister hrp) words
  set symbols := words ++ checksum.check register variant.const with hsyms
  have hsymbolslt : ∀ w ∈ symbols, w < 32 := by
    intro w hw
    rcases mem_append.mp hw with hw | hw
    · exact hwords w hw
    · exact Checksum.check_lt _ _ w hw
  have htext : encode variant hrp words = hrp ++ '1' :: symbols.map letter := rfl
  have hchars : ∀ c ∈ encode variant hrp words, Lower c := by
    intro c hc
    rcases mem_append.mp hc with hc | hc
    · exact hlower c hc
    · rcases mem_cons.mp hc with rfl | hc
      · decide
      · obtain ⟨w, hw, rfl⟩ := mem_map.mp hc
        exact charset_lower (letter_mem (hsymbolslt w hw))
  have hmap : (encode variant hrp words).map Char.toLower = encode variant hrp words :=
    (map_congr_left fun c hc => (hchars c hc).2.2).trans (map_id _)
  have hsplit : splitLast (encode variant hrp words) = some (hrp, symbols.map letter) := by
    apply splitLast_append
    intro c hc
    obtain ⟨w, hw, rfl⟩ := mem_map.mp hc
    exact charset_ne_separator (letter_mem (hsymbolslt w hw))
  have hlen : symbols.length = words.length + 6 := by
    simp [hsyms, checksum]
  have hrun : checksum.run (hrpRegister hrp) symbols = variant.const := by
    rw [hsyms, run_append]
    exact Checksum.run_check _ variant.const_lt
  have htake : symbols.take (symbols.length - 6) = words := by
    rw [hlen, Nat.add_sub_cancel, hsyms, take_left]
  have hle : (encode variant hrp words).length ≤ limit := by
    simp [encode, checksum]
    omega
  have hprin : ∀ c ∈ encode variant hrp words, 33 ≤ c.toNat ∧ c.toNat ≤ 126 :=
    fun c hc => ⟨(hchars c hc).1, (hchars c hc).2.1⟩
  have hdata : 6 ≤ (symbols.map letter).length := by rw [length_map]; omega
  have hread := mapM_symbol_letter hsymbolslt
  rw [decode, guard_bind hle, guard_bind hprin, hmap, guard_bind (.inl rfl), hsplit]
  show ((guard (hrp ≠ [] ∧ 6 ≤ (symbols.map letter).length) : Option Unit) >>= _) = _
  rw [guard_bind ⟨hhrp, hdata⟩, hread]
  show ((guard (checksum.run (hrpRegister hrp) symbols = variant'.const) : Option Unit) >>= _) = _
  rw [hrun]
  by_cases hvariant : variant' = variant
  · rw [guard_bind (by rw [hvariant]), if_pos hvariant, htake]
    rfl
  · rw [guard, if_neg (fun h => hvariant (Variant.const_inj h).symm), if_neg hvariant]
    rfl

end

end Catomicals.Base.Bech32
