import Catomicals.Base.StackScript
import Catomicals.Issuance.Verify

/-!
# The issuer tapscript enforces the proof of work

The issuer script accepts a five-element stack exactly when the lane has supply left and the digest
is the target prefix followed by the revealed tail, which `verifyMint` checks outside the script.
-/
namespace Catomicals.Issuance

open Base Base.Outcome Base.StackScript IssuerState Bytes32 List Op

def Platform.scriptHash (P : Platform) (b : Bytes) : Bytes := (P.sha256 b).bytes

variable {minimal : Bool}

section Pieces

variable {hash : Bytes → Bytes} {code : Bytes} {stack : List Bytes} {data : Bytes}

lemma pushData_of_two_le (h : 2 ≤ data.length) :
    pushData data = if data.length ≤ 75 then UInt8.ofNat data.length :: data
      else if data.length ≤ 255 then 0x4c :: UInt8.ofNat data.length :: data
      else if data.length ≤ 65535 then 0x4d :: leBytes 2 data.length ++ data
      else 0x4e :: leBytes 4 data.length ++ data := by
  match data, h with
  | _ :: _ :: _, _ => rfl

lemma accepts_pushData_of_two_le (h2 : 2 ≤ data.length) (hdata : data.length ≤ maxElementSize)
    (hsize : stack.length < maxStackSize) :
    Accepts hash minimal (pushData data ++ code) stack ↔
      Accepts hash minimal code (data :: stack) := by
  have hmax : data.length ≤ 520 := hdata
  rw [pushData_of_two_le h2]
  split_ifs with h75 h255 h65535
  · refine accepts_push (fetch_direct h75) hdata ?_ hsize
    rw [isMinimalPush_of_two_le h2, if_pos h75, decide_eq_true_eq, UInt8.toNat_ofNat']
    omega
  · have hfetch : fetch (0x4c :: UInt8.ofNat data.length :: data ++ code) =
        some (.push 0x4c data, code) := fetchSized_leBytes 0x4c 1 (by omega)
    refine accepts_push hfetch hdata ?_ hsize
    rw [isMinimalPush_of_two_le h2, if_neg h75, if_pos h255, decide_eq_true_eq]
  · have hfetch : fetch (0x4d :: leBytes 2 data.length ++ data ++ code) =
        some (.push 0x4d data, code) := by
      exact fetchSized_leBytes 0x4d 2 (by omega)
    refine accepts_push hfetch hdata ?_ hsize
    rw [isMinimalPush_of_two_le h2, if_neg h75, if_neg h255, if_pos h65535, decide_eq_true_eq]
  · omega

/-- Every encoding that `pushData` chooses is minimal and pushes the data. -/
theorem accepts_pushData (hdata : data.length ≤ maxElementSize)
    (hsize : stack.length < maxStackSize) :
    Accepts hash minimal (pushData data ++ code) stack ↔
      Accepts hash minimal code (data :: stack) := by
  match data, hdata with
  | [], hdata =>
    have hfetch : fetch (zero :: code) = some (.push zero [], code) := rfl
    exact accepts_push hfetch hdata rfl hsize
  | [b], hdata =>
    rw [pushData]
    split_ifs with hsmall hneg
    · exact accepts_smallInt hsmall.1 hsmall.2 hsize
    · rw [hneg]
      exact accepts_of_step (fetch_operation (i := .smallInt [0x81]) rfl (by decide)) rfl hsize
    · have hfetch : fetch (1 :: b :: code) = some (.push 1 [b], code) := rfl
      have hmin : isMinimalPush 1 [b] = true := by
        rw [isMinimalPush, decide_eq_true_eq]
        exact ⟨hsmall, hneg, rfl⟩
      exact accepts_push hfetch hdata hmin hsize
  | a :: b :: rest, hdata => exact accepts_pushData_of_two_le (by simp) hdata hsize

theorem accepts_pushPick {n : UInt8} {x : Bytes} (h1 : 1 ≤ n) (h16 : n ≤ 16)
    (hx : stack[n.toNat]? = some x) (hsize : stack.length < maxStackSize) :
    Accepts hash minimal (pushPick n ++ code) stack ↔ Accepts hash minimal code (x :: stack) :=
  accepts_pick h1 h16 hx hsize

/-- The concatenations join the copied fields in the order of the proof of work. -/
theorem accepts_catFour {a b c d e : Bytes} (h : (a ++ b ++ c ++ d ++ e).length ≤ maxElementSize)
    (hsize : stack.length + 4 ≤ maxStackSize) :
    Accepts hash minimal ([cat, cat, cat, cat] ++ code) (e :: d :: c :: b :: a :: stack) ↔
      Accepts hash minimal code ((a ++ b ++ c ++ d ++ e) :: stack) := by
  simp only [length_append] at h
  have hjoin : a ++ (b ++ (c ++ (d ++ e))) = a ++ b ++ c ++ d ++ e := by
    simp only [append_assoc]
  simp only [cons_append, nil_append, cat]
  rw [accepts_cat (by omega) (by simp; omega),
    accepts_cat (by rw [length_append]; omega) (by simp; omega),
    accepts_cat (by simp; omega) (by simp; omega), accepts_cat (by simp; omega) (by omega), hjoin]

theorem accepts_equalVerify {x y : Bytes} (hsize : stack.length < maxStackSize) :
    Accepts hash minimal ([equal, verify] ++ code) (y :: x :: stack) ↔
      x = y ∧ Accepts hash minimal code stack := by
  simp only [cons_append, nil_append, equal, verify]
  rw [accepts_equal hsize, accepts_verify hsize.le, beq_iff_eq]

theorem accepts_equalNotVerify {x y : Bytes} (hsize : stack.length < maxStackSize) :
    Accepts hash minimal ([equal, Op.not, verify] ++ code) (y :: x :: stack) ↔
      x ≠ y ∧ Accepts hash minimal code stack := by
  simp only [cons_append, nil_append, equal, Op.not, verify]
  rw [accepts_equal hsize, accepts_not hsize, accepts_verify hsize.le, Bool.not_eq_true',
    beq_eq_false_iff_ne]

theorem accepts_drops (dropped : List Bytes)
    (hsize : dropped.length + stack.length ≤ maxStackSize) :
    Accepts hash minimal (replicate dropped.length Op.drop ++ code) (dropped ++ stack) ↔
      Accepts hash minimal code stack := by
  induction dropped with
  | nil => rfl
  | cons _ _ ih =>
    rw [length_cons] at hsize
    rw [length_cons, replicate_succ, cons_append, cons_append, Op.drop,
      accepts_drop (by rw [length_append]; omega)]
    exact ih (by omega)

theorem accepts_true : Accepts hash minimal [one] [] := by
  have hone : Accepts hash minimal [0x50 + 1] [] ↔ Accepts hash minimal [] [[1]] :=
    accepts_smallInt (by decide) (by decide) (by decide)
  exact hone.mpr (accepts_nil.mpr rfl)

end Pieces

/-- The stack behind the constants: the committed state over the arguments of the spend. -/
def IssuerState.gateStack (s : IssuerState) (arguments : List Bytes) : List Bytes :=
  encodeU8 s.lane :: encodeU8 s.targetPrefix :: encodeU32 s.remaining :: encodeU32 s.seq ::
    s.termsHash.bytes :: arguments

/-- The byte string the script hashes, for arguments of any length. -/
def IssuerState.workInput (s : IssuerState) (itemCommitment nonce : Bytes) : Bytes :=
  s.termsHash.bytes ++ [0x01, s.lane] ++ 0x01 :: leBytes 4 s.seq.toNat ++ itemCommitment ++ nonce

@[simp] lemma length_encodeU32 (v : UInt32) : (encodeU32 v).length = stateIntLen := by
  simp [encodeU32, stateIntLen]

lemma encodeU32_eq_iff (v w : UInt32) : encodeU32 v = encodeU32 w ↔ v = w := by
  constructor
  · intro h
    have hle : leBytes 4 v.toNat = leBytes 4 w.toNat := (cons.inj h).2
    have hnum := congrArg ofLeBytes hle
    rw [ofLeBytes_leBytes, ofLeBytes_leBytes, Nat.mod_eq_of_lt (by simpa using v.toNat_lt),
      Nat.mod_eq_of_lt (by simpa using w.toNat_lt)] at hnum
    exact UInt32.toNat_inj.mp hnum
  · rintro rfl
    rfl

variable {arguments : List Bytes}

lemma accepts_constants {hash : Bytes → Bytes} {code : Bytes} (s : IssuerState)
    (hsize : arguments.length + 5 ≤ maxStackSize) :
    Accepts hash minimal (s.toScriptConstants.flatMap pushData ++ code) arguments ↔
      Accepts hash minimal code (s.gateStack arguments) := by
  have h32 : s.termsHash.bytes.length ≤ maxElementSize := by simp [maxElementSize]
  have h5 : ∀ v, (encodeU32 v).length ≤ maxElementSize := by
    simp [maxElementSize, stateIntLen]
  have h2 : ∀ v, (encodeU8 v).length ≤ maxElementSize := by simp [maxElementSize, encodeU8]
  simp only [toScriptConstants, flatMap_cons, flatMap_nil, append_nil, append_assoc]
  rw [accepts_pushData h32 (by omega), accepts_pushData (h5 _) (by simp; omega),
    accepts_pushData (h5 _) (by simp; omega), accepts_pushData (h2 _) (by simp; omega),
    accepts_pushData (h2 _) (by simp; omega), gateStack]

section Sections

variable (P : Platform) (s : IssuerState) {nonce itemCommitment hashTail ownerKey payload : Bytes}

lemma length_lt_maxStackSize {stack : List Bytes} (h : stack.length ≤ 16) :
    stack.length < maxStackSize := by
  rw [maxStackSize]
  omega

lemma accepts_supply :
    Accepts P.scriptHash minimal (pushPick 2 ++ (pushData [stateFieldTag, 0, 0, 0, 0] ++
        ([equal, Op.not, verify] ++ (replicate 10 Op.drop ++ [one]))))
        (s.gateStack [payload, ownerKey, hashTail, itemCommitment, nonce]) ↔
      s.remaining ≠ 0 := by
  have hroom := @length_lt_maxStackSize
  have hend : Accepts P.scriptHash minimal (replicate 10 Op.drop ++ [one])
      (s.gateStack [payload, ownerKey, hashTail, itemCommitment, nonce] ++ []) :=
    (accepts_drops (s.gateStack [payload, ownerKey, hashTail, itemCommitment, nonce])
      (by simp [gateStack, maxStackSize])).mpr accepts_true
  have hzero : ([stateFieldTag, 0, 0, 0, 0] : Bytes) = encodeU32 0 := rfl
  rw [accepts_pushPick (x := encodeU32 s.remaining) (by decide) (by decide) rfl
      (hroom (by simp [gateStack])), hzero,
    accepts_pushData (by simp [stateIntLen, maxElementSize]) (hroom (by simp [gateStack])),
    accepts_equalNotVerify (hroom (by simp [gateStack])), Ne, encodeU32_eq_iff]
  exact and_iff_left hend

lemma accepts_issuerScript_iff (hinput : (s.workInput itemCommitment nonce).length ≤ maxElementSize)
    (htail : s.targetPrefix.toNat + hashTail.length ≤ maxElementSize) :
    Accepts P.scriptHash minimal (issuerScript s)
        [payload, ownerKey, hashTail, itemCommitment, nonce] ↔
      s.remaining ≠ 0 ∧ P.scriptHash (s.workInput itemCommitment nonce) =
        replicate s.targetPrefix.toNat powPrefixByte ++ hashTail := by
  have hrange : (replicate s.targetPrefix.toNat powPrefixByte).length ≤ maxElementSize := by
    rw [length_replicate]
    omega
  have hroom := @length_lt_maxStackSize
  have hfields : s.workInput itemCommitment nonce =
      s.termsHash.bytes ++ encodeU8 s.lane ++ encodeU32 s.seq ++ itemCommitment ++ nonce := rfl
  simp only [issuerScript, append_assoc]
  rw [hfields] at hinput ⊢
  rw [accepts_constants s (by simp [maxStackSize]), gateStack]
  -- Every copy grows the stack by one, which the depth of the next copy accounts for.
  rw [accepts_pushPick (x := s.termsHash.bytes) (by decide) (by decide) rfl (hroom (by simp)),
    accepts_pushPick (x := encodeU8 s.lane) (by decide) (by decide) rfl (hroom (by simp)),
    accepts_pushPick (x := encodeU32 s.seq) (by decide) (by decide) rfl (hroom (by simp)),
    accepts_pushPick (x := itemCommitment) (by decide) (by decide) rfl (hroom (by simp)),
    accepts_pushPick (x := nonce) (by decide) (by decide) rfl (hroom (by simp)),
    accepts_catFour hinput (by simp [maxStackSize]), cons_append, nil_append, sha256,
    accepts_sha256 (hroom (by simp)), accepts_pushData hrange (hroom (by simp)),
    accepts_pushPick (x := hashTail) (by decide) (by decide) rfl (hroom (by simp)),
    cons_append, cat,
    accepts_cat (by rw [length_replicate]; exact htail) (hroom (by simp)),
    accepts_equalVerify (hroom (by simp)), ← gateStack, accepts_supply, and_comm]

end Sections

lemma digest_eq_of_meetsTarget {digest : Bytes32} {targetPrefix : UInt8} {tail : Bytes}
    (hmeets : meetsTarget digest targetPrefix = .ok true)
    (htail : hashTail digest targetPrefix = .ok tail) :
    digest.bytes = replicate targetPrefix.toNat powPrefixByte ++ tail := by
  have hle : targetPrefix.toNat ≤ digest.bytes.length := by
    by_contra hgt
    rw [hashTail, sliceFrom, if_neg hgt] at htail
    simp at htail
  have hdrop : digest.bytes.drop targetPrefix.toNat = tail := by
    rw [hashTail, sliceFrom_of_le hle] at htail
    exact Except.ok.inj htail
  have htake : digest.bytes.take targetPrefix.toNat =
      replicate targetPrefix.toNat powPrefixByte := by
    apply eq_replicate_iff.mpr
    refine ⟨length_take_of_le hle, ?_⟩
    intro b hb
    have hpos : targetPrefix.toNat ≠ 0 := by
      intro hzero
      simp [hzero] at hb
    rw [length_bytes] at hle
    rw [meetsTarget, if_neg hpos, if_neg (by omega),
      sliceTo_of_le (by rw [length_bytes]; exact hle)] at hmeets
    simp only [bind, Except.bind, pure_eq_ok, all_eq_true, beq_iff_eq] at hmeets
    exact hmeets b hb
  rw [← htake, ← hdrop, take_append_drop]

lemma eq_of_length_eq_five {α : Type} :
    ∀ {l : List α}, l.length = 5 → ∃ a b c d e, l = [a, b, c, d, e]
  | [a, b, c, d, e], _ => ⟨a, b, c, d, e, rfl⟩

lemma arguments_of_parseMintWitness {P : Platform} {mw : MintWitness}
    (h : parseMintWitness P arguments = .ok mw) :
    ∃ ownerKey, arguments = [leBytes 8 mw.nonce.toNat, mw.itemCommitment.bytes, mw.hashTail,
      ownerKey, mw.payload] := by
  simp only [parseMintWitness, ok_iff] at h
  obtain ⟨hlen, nonce, hnonce, hwidth, commitment, hcom, c, hc, _, htail, _, -, _,
    -, _, hpay, rfl⟩ := h
  obtain ⟨a0, a1, _, a3, _, rfl⟩ := eq_of_length_eq_five hlen
  obtain rfl : a0 = nonce := Option.some.inj hnonce
  obtain rfl : a1 = commitment := Option.some.inj hcom
  cases htail
  cases hpay
  have hbytes : c.bytes = a1 := by
    unfold ofBytes at hc
    split_ifs at hc
    rw [← Option.some.inj hc]
  have hround : leBytes 8 (ofLeBytes a0) = a0 := by
    rw [← hwidth]
    exact leBytes_ofLeBytes a0
  have hbound : ofLeBytes a0 < 2 ^ 64 := by
    have hmod := ofLeBytes_leBytes 8 (ofLeBytes a0)
    rw [hround] at hmod
    omega
  have hnat : (UInt64.ofNat (ofLeBytes a0)).toNat = ofLeBytes a0 := UInt64.toNat_ofNat_of_lt hbound
  exact ⟨a3, by simp only [hnat, hround, hbytes]⟩

/-- The tapscript is the proof-of-work gate, on arguments whose concatenations fit an element, and
accepts what the verifier accepts. -/
theorem issuerScript_enforces_work (P : Platform) (minimal : Bool) (s : IssuerState) :
    (∀ nonce itemCommitment hashTail ownerKey payload : Bytes,
      (s.workInput itemCommitment nonce).length ≤ maxElementSize →
      s.targetPrefix.toNat + hashTail.length ≤ maxElementSize →
      (Accepts P.scriptHash minimal (issuerScript s)
          [payload, ownerKey, hashTail, itemCommitment, nonce] ↔
        s.remaining ≠ 0 ∧ (P.sha256 (s.workInput itemCommitment nonce)).bytes =
          replicate s.targetPrefix.toNat 0x01 ++ hashTail)) ∧
    ∀ (terms : IssuanceTerms) (arguments : List Bytes) (mw : MintWitness),
      checkTerms P s terms = .ok () → parseMintWitness P arguments = .ok mw →
      meetsTarget (powHash P s.termsHash s.lane s.seq mw.itemCommitment mw.nonce)
        s.targetPrefix = .ok true →
      hashTail (powHash P s.termsHash s.lane s.seq mw.itemCommitment mw.nonce)
        s.targetPrefix = .ok mw.hashTail →
      Accepts P.scriptHash minimal (issuerScript s) arguments.reverse := by
  constructor
  · intro _ _ _ _ _ hinput htail
    exact accepts_issuerScript_iff P s hinput htail
  · intro _ _ mw hterms hparse hmeets htail
    simp only [checkTerms, ok_iff] at hterms
    obtain ⟨_, rfl⟩ := arguments_of_parseMintWitness hparse
    have hdig := digest_eq_of_meetsTarget hmeets htail
    have hinput : s.workInput mw.itemCommitment.bytes (leBytes 8 mw.nonce.toNat) =
        powInput s.termsHash s.lane s.seq mw.itemCommitment mw.nonce := by
      simp [workInput, powInput, stateFieldTag]
    have hlen := congrArg length hdig
    rw [length_bytes, length_append, length_replicate] at hlen
    refine (accepts_issuerScript_iff P s ?_ ?_).mpr ⟨hterms.2.2.2, ?_⟩
    · simp [workInput, maxElementSize]
    · rw [maxElementSize]
      omega
    · rw [hinput]
      exact hdig

/-- A state with one slot left and a target of two bytes, met by thirty more `0x01`. -/
theorem issuerScript_enforces_work_ones :
    Accepts onesPlatform.scriptHash true (issuerScript ⟨.zeros, 0, 3, 1, 2⟩)
      [[7], replicate 32 5, replicate 30 1, replicate 32 4, replicate 8 0] :=
  ((issuerScript_enforces_work onesPlatform true ⟨.zeros, 0, 3, 1, 2⟩).1 _ _ _ _ _ (by decide)
    (by decide)).mpr ⟨by decide, by decide⟩

end Catomicals.Issuance
