import Catomicals.Base.Bytes
import Catomicals.Base.Outcome

/-!
# A stack language of byte strings

The script language of a Bitcoin output, for pushes and `PICK`, `CAT`, `SHA256`, `EQUAL`, `VERIFY`,
`NOT` and `DROP`. The rules at the end rewrite acceptance of a script into acceptance of what
follows its first operation, so a concrete script is verified from its first byte to its last.
-/
namespace Catomicals.Base.StackScript

def maxElementSize : ℕ := 520

def maxStackSize : ℕ := 1000

inductive ScriptError where
  | badOpcode | pushSize | minimalData | invalidStackOperation | invalidNumber | stackSize | verify

/-- A push keeps its opcode, which decides whether it is minimal. -/
inductive Instr where
  | push (opcode : UInt8) (data : Bytes)
  | smallInt (data : Bytes)
  | pick
  | cat
  | sha256
  | equal
  | verify
  | not
  | drop

variable (opcode : UInt8)

def fetchPush (size : ℕ) (body : Bytes) : Option (Instr × Bytes) :=
  if body.length < size then none else some (.push opcode (body.take size), body.drop size)

def fetchSized (width : ℕ) (rest : Bytes) : Option (Instr × Bytes) :=
  if rest.length < width then none
  else fetchPush opcode (ofLeBytes (rest.take width)) (rest.drop width)

/-- The instructions that are a single byte. -/
def operation : Option Instr :=
  if opcode = 0x4f then some (.smallInt [0x81])
  else if 0x51 ≤ opcode ∧ opcode ≤ 0x60 then some (.smallInt [opcode - 0x50])
  else if opcode = 0x69 then some .verify
  else if opcode = 0x75 then some .drop
  else if opcode = 0x79 then some .pick
  else if opcode = 0x7e then some .cat
  else if opcode = 0x87 then some .equal
  else if opcode = 0x91 then some .not
  else if opcode = 0xa8 then some .sha256
  else none

/-- The next instruction of a script and the script behind it. -/
def fetch : Bytes → Option (Instr × Bytes)
  | [] => none
  | op :: rest =>
    if op ≤ 75 then fetchPush op op.toNat rest
    else if op = 0x4c then fetchSized op 1 rest
    else if op = 0x4d then fetchSized op 2 rest
    else if op = 0x4e then fetchSized op 4 rest
    else (operation op).map fun i => (i, rest)

lemma fetchPush_length {op : UInt8} {size : ℕ} {body next : Bytes} {i : Instr}
    (h : fetchPush op size body = some (i, next)) : next.length ≤ body.length := by
  unfold fetchPush at h
  split_ifs at h
  simp only [Option.some.injEq, Prod.mk.injEq] at h
  rw [← h.2, List.length_drop]
  omega

lemma fetchSized_length {op : UInt8} {width : ℕ} {rest next : Bytes} {i : Instr}
    (h : fetchSized op width rest = some (i, next)) : next.length ≤ rest.length := by
  unfold fetchSized at h
  split_ifs at h
  have hnext := fetchPush_length h
  rw [List.length_drop] at hnext
  omega

lemma fetch_length {code next : Bytes} {i : Instr} (h : fetch code = some (i, next)) :
    next.length < code.length := by
  cases code with
  | nil => simp [fetch] at h
  | cons =>
    rw [List.length_cons, Nat.lt_succ_iff]
    rw [fetch] at h
    split_ifs at h
    · exact fetchPush_length h
    · exact fetchSized_length h
    · exact fetchSized_length h
    · exact fetchSized_length h
    · obtain ⟨j, -, hj⟩ := Option.map_eq_some_iff.mp h
      rw [(Prod.mk.inj hj).2]

variable (data : Bytes)

def isMinimalPush : Bool :=
  match data with
  | [] => opcode = 0
  | [b] => ¬(1 ≤ b ∧ b ≤ 16) ∧ b ≠ 0x81 ∧ opcode = 1
  | _ =>
    if data.length ≤ 75 then opcode.toNat = data.length
    else if data.length ≤ 255 then opcode = 0x4c
    else if data.length ≤ 65535 then opcode = 0x4d
    else true

lemma isMinimalPush_of_two_le {opcode : UInt8} {data : Bytes} (h : 2 ≤ data.length) :
    isMinimalPush opcode data = if data.length ≤ 75 then decide (opcode.toNat = data.length)
      else if data.length ≤ 255 then decide (opcode = 0x4c)
      else if data.length ≤ 65535 then decide (opcode = 0x4d)
      else true := by
  match data, h with
  | _ :: _ :: _, _ => rfl

/-- The top byte carries more than the sign, or the one below needs its top bit. -/
def isMinimalNum : Bool :=
  match data.reverse with
  | [] => true
  | [top] => top &&& 0x7f ≠ 0
  | top :: below :: _ => top &&& 0x7f ≠ 0 ∨ below &&& 0x80 ≠ 0

/-- A byte string as a little-endian number with the sign in the top bit. -/
def decodeNum : ℤ :=
  match data.getLast? with
  | none => 0
  | some top =>
    if top.toNat < 128 then ofLeBytes data
    else -((ofLeBytes data : ℤ) - 128 * 256 ^ (data.length - 1))

/-- A number operand: at most four bytes, and minimal if that is required. -/
def scriptNum (minimal : Bool) (data : Bytes) : Except ScriptError ℤ := do
  require (data.length ≤ 4) .invalidNumber
  require (minimal = true → isMinimalNum data = true) .invalidNumber
  return decodeNum data

/-- A nonzero byte makes an element true, except the sign of a negative zero. -/
def isTrue : Bool :=
  match data.reverse with
  | [] => false
  | top :: below => (top ≠ 0 ∧ top ≠ 0x80) ∨ below.any (· ≠ 0)

def ofBool (b : Bool) : Bytes := if b then [1] else []

section Execution

variable (hash : Bytes → Bytes) (minimal : Bool)

def step (i : Instr) (stack : List Bytes) : Except ScriptError (List Bytes) :=
  match i, stack with
  | .push opcode data, stack => do
    require (data.length ≤ maxElementSize) .pushSize
    require (minimal = true → isMinimalPush opcode data = true) .minimalData
    return data :: stack
  | .smallInt data, stack => .ok (data :: stack)
  | .pick, n :: stack => do
    let depth ← scriptNum minimal n
    require (0 ≤ depth) .invalidStackOperation
    let x ← orError stack[depth.toNat]? .invalidStackOperation
    return x :: stack
  | .cat, y :: x :: stack => do
    require (x.length + y.length ≤ maxElementSize) .pushSize
    return (x ++ y) :: stack
  | .sha256, x :: stack => .ok (hash x :: stack)
  | .equal, y :: x :: stack => .ok (ofBool (x == y) :: stack)
  | .verify, x :: stack => do
    require (isTrue x = true) .verify
    return stack
  | .not, x :: stack => do
    let n ← scriptNum minimal x
    return ofBool (n == 0) :: stack
  | .drop, _ :: stack => .ok stack
  | _, _ => .error .invalidStackOperation

/-- Execute a script to its end. -/
def run (code : Bytes) (stack : List Bytes) : Except ScriptError (List Bytes) :=
  if code = [] then .ok stack
  else
    match _h : fetch code with
    | none => .error .badOpcode
    | some (i, next) => do
      let stack ← step hash minimal i stack
      require (stack.length ≤ maxStackSize) .stackSize
      run next stack
termination_by code.length
decreasing_by exact fetch_length _h

/-- The execution ends with exactly one element, and it is true. -/
def Accepts (code : Bytes) (stack : List Bytes) : Prop :=
  ∃ x, run hash minimal code stack = .ok [x] ∧ isTrue x = true

end Execution

section Rules

variable {hash : Bytes → Bytes} {minimal : Bool} {code next : Bytes} {stack stack' : List Bytes}
  {i : Instr} {x : Bytes} {n : UInt8} {data : Bytes}

theorem accepts_nil : Accepts hash minimal [] [x] ↔ isTrue x = true := by
  simp [Accepts, run]

theorem accepts_of_step (hfetch : fetch code = some (i, next))
    (hstep : step hash minimal i stack = .ok stack') (hsize : stack'.length ≤ maxStackSize) :
    Accepts hash minimal code stack ↔ Accepts hash minimal next stack' := by
  have hcode : code ≠ [] := by
    intro hnil
    simp [hnil, fetch] at hfetch
  have hrun : run hash minimal code stack = run hash minimal next stack' := by
    rw [run, if_neg hcode]
    split
    · next hnone => simp [hnone] at hfetch
    · next j rest hsome =>
      rw [hsome, Option.some.injEq, Prod.mk.injEq] at hfetch
      simp [hfetch.1, hfetch.2, hstep, require, hsize, bind, Except.bind]
  rw [Accepts, hrun, Accepts]

theorem not_accepts_of_step {e : ScriptError} (hfetch : fetch code = some (i, next))
    (hstep : step hash minimal i stack = .error e) : ¬Accepts hash minimal code stack := by
  have hcode : code ≠ [] := by
    intro hnil
    simp [hnil, fetch] at hfetch
  rintro ⟨x, hrun, -⟩
  rw [run, if_neg hcode] at hrun
  split at hrun
  · simp at hrun
  · next j rest hsome =>
    rw [hsome, Option.some.injEq, Prod.mk.injEq] at hfetch
    simp [hfetch.1, hstep, bind, Except.bind] at hrun

lemma fetch_operation {op : UInt8} (hop : operation op = some i) (hpush : 0x4e < op) :
    fetch (op :: next) = some (i, next) := by
  have hpush' := UInt8.lt_iff_toNat_lt.mp hpush
  rw [fetch, if_neg, if_neg, if_neg, if_neg, hop]
  · rfl
  · rintro rfl; simp at hpush'
  · rintro rfl; simp at hpush'
  · rintro rfl; simp at hpush'
  · rw [UInt8.le_iff_toNat_le]
    simp at hpush' ⊢
    omega

lemma operation_smallInt (h1 : 1 ≤ n) (h16 : n ≤ 16) :
    operation (0x50 + n) = some (.smallInt [n]) := by
  rw [UInt8.le_iff_toNat_le] at h1 h16
  simp only [UInt8.reduceToNat] at h1 h16
  have hsum : (0x50 + n).toNat = 80 + n.toNat := by
    rw [UInt8.toNat_add]
    simp only [UInt8.reduceToNat]
    omega
  have hneg : 0x50 + n ≠ 0x4f := by
    intro heq
    rw [heq] at hsum
    simp only [UInt8.reduceToNat] at hsum
    omega
  rw [operation, if_neg hneg, if_pos]
  · simp
  · rw [UInt8.le_iff_toNat_le, UInt8.le_iff_toNat_le, hsum]
    simp only [UInt8.reduceToNat]
    omega

lemma fetch_direct (h : data.length ≤ 75) :
    fetch (UInt8.ofNat data.length :: (data ++ next)) =
      some (.push (UInt8.ofNat data.length) data, next) := by
  have hnat : (UInt8.ofNat data.length).toNat = data.length := by
    rw [UInt8.toNat_ofNat']
    omega
  have hle : UInt8.ofNat data.length ≤ 75 := by
    rw [UInt8.le_iff_toNat_le, hnat]
    exact h
  rw [fetch, if_pos hle, hnat, fetchPush, if_neg (by simp)]
  simp

lemma fetchSized_leBytes (op : UInt8) (width : ℕ) (h : data.length < 256 ^ width) :
    fetchSized op width (leBytes width data.length ++ (data ++ next)) =
      some (.push op data, next) := by
  have hsize : ofLeBytes ((leBytes width data.length ++ (data ++ next)).take width) =
      data.length := by
    rw [List.take_left' (length_leBytes _ _), ofLeBytes_leBytes, Nat.mod_eq_of_lt h]
  rw [fetchSized, if_neg (by simp), hsize, List.drop_left' (length_leBytes _ _), fetchPush,
    if_neg (by simp)]
  simp

theorem accepts_push {op : UInt8} (hfetch : fetch code = some (.push op data, next))
    (hdata : data.length ≤ maxElementSize) (hmin : isMinimalPush op data = true)
    (hsize : stack.length < maxStackSize) :
    Accepts hash minimal code stack ↔ Accepts hash minimal next (data :: stack) := by
  have hpush : step hash minimal (.push op data) stack = .ok (data :: stack) := by
    simp [step, require, hdata, hmin, bind, Except.bind, pure, Except.pure]
  exact accepts_of_step hfetch hpush hsize

theorem accepts_smallInt (h1 : 1 ≤ n) (h16 : n ≤ 16) (hsize : stack.length < maxStackSize) :
    Accepts hash minimal ((0x50 + n) :: code) stack ↔ Accepts hash minimal code ([n] :: stack) := by
  have hpush : (0x4e : UInt8) < 0x50 + n := by
    rw [UInt8.le_iff_toNat_le] at h1 h16
    rw [UInt8.lt_iff_toNat_lt, UInt8.toNat_add]
    simp only [UInt8.reduceToNat] at h1 h16 ⊢
    omega
  exact accepts_of_step (fetch_operation (operation_smallInt h1 h16) hpush) rfl hsize

lemma scriptNum_singleton (h1 : 1 ≤ n) (h16 : n ≤ 16) :
    scriptNum minimal [n] = .ok (n.toNat : ℤ) := by
  rw [UInt8.le_iff_toNat_le] at h1 h16
  simp only [UInt8.reduceToNat] at h1 h16
  have hand : n &&& 0x7f ≠ 0 := by
    intro hzero
    have hnat : (n &&& 0x7f).toNat = 0 := by rw [hzero]; rfl
    have hmask : (0x7f : UInt8).toNat = 2 ^ 7 - 1 := rfl
    rw [UInt8.toNat_and, hmask, Nat.and_two_pow_sub_one_eq_mod] at hnat
    omega
  have hmin : isMinimalNum [n] = true := by simpa [isMinimalNum] using hand
  have hnum : decodeNum [n] = n.toNat := by
    simp only [decodeNum, List.getLast?_singleton, ofLeBytes]
    rw [if_pos (by omega)]
    simp
  simp [scriptNum, require, hmin, hnum, bind, Except.bind, pure, Except.pure]

theorem accepts_pick (h1 : 1 ≤ n) (h16 : n ≤ 16) (hx : stack[n.toNat]? = some x)
    (hsize : stack.length < maxStackSize) :
    Accepts hash minimal ((0x50 + n) :: 0x79 :: code) stack ↔
      Accepts hash minimal code (x :: stack) := by
  have hcopy : step hash minimal .pick ([n] :: stack) = .ok (x :: stack) := by
    simp [step, scriptNum_singleton h1 h16, hx, orError, require, bind, Except.bind, pure,
      Except.pure]
  rw [accepts_smallInt h1 h16 hsize,
    accepts_of_step (fetch_operation (i := .pick) rfl (by decide)) hcopy hsize]

theorem accepts_cat {y : Bytes} (h : x.length + y.length ≤ maxElementSize)
    (hsize : stack.length < maxStackSize) :
    Accepts hash minimal (0x7e :: code) (y :: x :: stack) ↔
      Accepts hash minimal code ((x ++ y) :: stack) := by
  have hcat : step hash minimal .cat (y :: x :: stack) = .ok ((x ++ y) :: stack) := by
    simp [step, require, h, bind, Except.bind, pure, Except.pure]
  exact accepts_of_step (fetch_operation (i := .cat) rfl (by decide)) hcat hsize

theorem accepts_sha256 (hsize : stack.length < maxStackSize) :
    Accepts hash minimal (0xa8 :: code) (x :: stack) ↔
      Accepts hash minimal code (hash x :: stack) :=
  accepts_of_step (fetch_operation (i := .sha256) rfl (by decide)) rfl hsize

theorem accepts_drop (hsize : stack.length ≤ maxStackSize) :
    Accepts hash minimal (0x75 :: code) (x :: stack) ↔ Accepts hash minimal code stack :=
  accepts_of_step (fetch_operation (i := .drop) rfl (by decide)) rfl hsize

theorem accepts_equal {y : Bytes} (hsize : stack.length < maxStackSize) :
    Accepts hash minimal (0x87 :: code) (y :: x :: stack) ↔
      Accepts hash minimal code (ofBool (x == y) :: stack) :=
  accepts_of_step (fetch_operation (i := .equal) rfl (by decide)) rfl hsize

theorem accepts_not {b : Bool} (hsize : stack.length < maxStackSize) :
    Accepts hash minimal (0x91 :: code) (ofBool b :: stack) ↔
      Accepts hash minimal code (ofBool (!b) :: stack) := by
  have hnot : step hash minimal .not (ofBool b :: stack) = .ok (ofBool (!b) :: stack) := by
    cases b <;> cases minimal <;> rfl
  exact accepts_of_step (fetch_operation (i := .not) rfl (by decide)) hnot hsize

theorem accepts_verify {b : Bool} (hsize : stack.length ≤ maxStackSize) :
    Accepts hash minimal (0x69 :: code) (ofBool b :: stack) ↔
      b = true ∧ Accepts hash minimal code stack := by
  have hfetch : fetch (0x69 :: code) = some (.verify, code) := fetch_operation rfl (by decide)
  cases b with
  | true => simpa using accepts_of_step hfetch rfl hsize
  | false =>
    have hfail : ¬Accepts hash minimal (0x69 :: code) (ofBool false :: stack) :=
      not_accepts_of_step hfetch rfl
    simpa using hfail

end Rules

end Catomicals.Base.StackScript
