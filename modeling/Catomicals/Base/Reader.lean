import Catomicals.Base.Fields
import Catomicals.Base.Outcome

/-!
# Readers of byte strings

A reader takes a value off a slice at its position. What it does is said by one predicate: it
returns a value if the code word of that value stands there, and it fails, without a panic, if no
code word does.
-/
namespace Catomicals.Base

open List

/-- A slice of bytes, whose length is a value of `usize`. -/
structure Slice where
  bytes : Bytes
  /-- how many values `usize` has -/
  usize : ℕ
  length_lt : bytes.length < usize

/-- A reader of a slice at a position, which it moves. -/
abbrev Reader (ε α : Type) := ReaderT Slice (StateT ℕ (Except (Fault ε))) α

namespace Reader

variable {ε α β : Type} {e : ε} {r : Reader ε α} {r' : Reader ε β} {f : α → Reader ε β}

def lift (x : Outcome ε α) : Reader ε α := fun _ position => do
  let a ← x
  return (a, position)

/-- The next `n` bytes: `position.checked_add(n)`, then `bytes.get(position..end)`. -/
def take (n : ℕ) (e : ε) : Reader ε Bytes := fun s position => do
  Outcome.ensure (position + n < s.usize) e
  Outcome.ensure (position + n ≤ s.bytes.length) e
  return ((s.bytes.drop position).take n, position + n)

/-- The first byte of the next array of length one. -/
def byte (e : ε) : Reader ε UInt8 := do
  let array ← take 1 e
  lift (.ofPanic (index array 0))

/-- A little-endian number of the given width. -/
def number (width : ℕ) (e : ε) : Reader ε ℕ := do
  let bytes ← take width e
  return ofLeBytes bytes

variable (r)

/-- A value that has to pass a check. -/
def checked (c : α → Prop) [DecidablePred c] (e : ε) : Reader ε α := do
  let a ← r
  lift (.ensure (c a) e)
  return a

def many (r : Reader ε α) : ℕ → Reader ε (List α)
  | 0 => pure []
  | n + 1 => do
    let a ← r
    let rest ← many r n
    return a :: rest

/-- `Vec::with_capacity`, which panics above `isize::MAX` bytes. -/
def withCapacity (elementBytes count : ℕ) : Except Panic Unit :=
  if count * elementBytes < 2 ^ 63 then .ok () else .error .capacityOverflow

/-- Values that are pushed to a vector with the capacity for them. -/
def collect (elementBytes count : ℕ) : Reader ε (List α) := do
  lift (.ofPanic (withCapacity elementBytes count))
  many r count

def both (r' : Reader ε β) : Reader ε (α × β) := do
  let a ← r
  let b ← r'
  return (a, b)

/-- The reader returns the value whose code word stands next and moves behind it; else it fails. -/
def Reads (p : α → Prop) (write : α → Bytes) : Prop :=
  ∀ s position, position ≤ s.bytes.length →
    (∀ a rest, p a → s.bytes.drop position = write a ++ rest →
      r s position = .ok (a, position + (write a).length)) ∧
    ((∃ a rest, p a ∧ s.bytes.drop position = write a ++ rest) ∨
      ∃ e, r s position = .error (.error e))

variable {r} {p q : α → Prop} {write write' : α → Bytes} {u : β → Prop} {v : β → Bytes}

theorem Reads.congr (h : Reads r p write) (hp : ∀ a, q a ↔ p a)
    (hwrite : ∀ a, p a → write' a = write a) : Reads r q write' := by
  intro s position hpos
  obtain ⟨hreads, hfails⟩ := h s position hpos
  constructor
  · intro a rest ha hword
    have ha := (hp a).mp ha
    rw [hwrite a ha] at hword ⊢
    exact hreads a rest ha hword
  · refine hfails.imp_left ?_
    rintro ⟨a, rest, ha, hword⟩
    exact ⟨a, rest, (hp a).mpr ha, by rw [hwrite a ha, hword]⟩

theorem reads_lift {x : Outcome ε α} (hx : ∀ a, p a ↔ x = .ok a) (hsafe : ¬x.Panics) :
    Reads (lift x) p fun _ => [] := by
  intro s position _
  constructor
  · intro a _ ha _
    simp only [lift, (hx a).mp ha, length_nil]
    rfl
  · rcases x with ⟨e | p⟩ | a
    · exact .inr ⟨e, rfl⟩
    · exact absurd ⟨p, rfl⟩ hsafe
    · exact .inl ⟨a, _, (hx a).mpr rfl, rfl⟩

theorem reads_pure (a : α) : Reads (pure a : Reader ε α) (· = a) fun _ => [] :=
  reads_lift (x := .ok a) (by simp [eq_comm]) (by simp)

theorem reads_take (n : ℕ) : Reads (take n e) (·.length = n) id := by
  intro s position hpos
  constructor
  · rintro a rest rfl hword
    have hlen := congrArg length hword
    simp only [length_drop, length_append, id_eq] at hlen
    have hend : position + a.length ≤ s.bytes.length := by omega
    simp only [take, Outcome.ensure, if_pos (hend.trans_lt s.length_lt), if_pos hend, hword, id_eq,
      take_left]
    rfl
  · by_cases hend : position + n ≤ s.bytes.length
    · refine .inl ⟨_, _, ?_, (take_append_drop n _).symm⟩
      dsimp only
      rw [length_take, length_drop]
      omega
    · refine .inr ⟨e, ?_⟩
      simp only [take, Outcome.ensure, if_neg hend]
      split <;> rfl

theorem Reads.bind {q : α → β → Prop} {w : α → β → Bytes} (h : Reads r p write)
    (hf : ∀ a, p a → Reads (f a) (q a) (w a)) (hp : ∀ b, u b ↔ ∃ a, p a ∧ q a b)
    (hv : ∀ a b, p a → q a b → v b = write a ++ w a b) : Reads (r >>= f) u v := by
  intro s position hpos
  obtain ⟨hreads, hfails⟩ := h s position hpos
  have hbind : ∀ {x}, r s position = x → (r >>= f) s position = x >>= fun y => f y.1 s y.2 := by
    rintro _ rfl
    rfl
  have hnext : ∀ {a rest}, s.bytes.drop position = write a ++ rest →
      position + (write a).length ≤ s.bytes.length ∧
        s.bytes.drop (position + (write a).length) = rest := by
    intro a rest hword
    have hlen := congrArg length hword
    simp only [length_drop, length_append] at hlen
    exact ⟨by omega, by rw [← drop_drop, hword, drop_left]⟩
  constructor
  · intro b rest hb hword
    obtain ⟨a, ha, hq⟩ := (hp b).mp hb
    rw [hv a b ha hq, append_assoc] at hword
    obtain ⟨hle, hrest⟩ := hnext hword
    rw [hbind (hreads a _ ha hword), ok_bind, (hf a ha s _ hle).1 b rest hq hrest, hv a b ha hq,
      length_append, Nat.add_assoc]
  · rcases hfails with ⟨a, rest, ha, hword⟩ | ⟨e, he⟩
    · obtain ⟨hle, hrest⟩ := hnext hword
      rcases (hf a ha s _ hle).2 with ⟨b, rest', hq, hword'⟩ | ⟨e, he⟩
      · refine .inl ⟨b, rest', (hp b).mpr ⟨a, ha, hq⟩, ?_⟩
        rw [hv a b ha hq, append_assoc, ← hword', hrest, hword]
      · exact .inr ⟨e, by rw [hbind (hreads a rest ha hword), ok_bind, he]⟩
    · exact .inr ⟨e, by rw [hbind he, error_bind]⟩

theorem reads_byte : Reads (byte e) (fun _ => True) fun b => [b] := by
  refine (reads_take 1).bind (q := fun a b => a = [b]) (w := fun _ _ => []) ?_ ?_ ?_
  · intro a ha
    obtain ⟨b, rfl⟩ := length_eq_one_iff.mp ha
    apply reads_lift
    · simp
    · simp
  · simp
  · rintro _ b - rfl
    rfl

theorem Reads.map {f : α → β} {g : β → α} (h : Reads r p write)
    (hgf : ∀ a, p a → u (f a) ∧ g (f a) = a) (hfg : ∀ b, u b → p (g b) ∧ f (g b) = b) :
    Reads (r >>= fun a => pure (f a)) u fun b => write (g b) := by
  refine h.bind (q := fun a b => b = f a) (w := fun _ _ => []) (fun a _ => reads_pure _) ?_ ?_
  · intro b
    constructor
    · intro hb
      exact ⟨g b, (hfg b hb).1, (hfg b hb).2.symm⟩
    · rintro ⟨a, ha, rfl⟩
      exact (hgf a ha).1
  · rintro a _ ha rfl
    rw [(hgf a ha).2, append_nil]

theorem reads_number (width : ℕ) : Reads (number width e) (· < 256 ^ width) (leBytes width) := by
  apply (reads_take width).map
  · rintro b rfl
    have hmod := ofLeBytes_leBytes b.length (ofLeBytes b)
    rw [leBytes_ofLeBytes] at hmod
    rw [leBytes_ofLeBytes, hmod]
    exact ⟨Nat.mod_lt _ (Nat.pow_pos (by decide)), rfl⟩
  · intro n hn
    exact ⟨length_leBytes _ _, by rw [ofLeBytes_leBytes, Nat.mod_eq_of_lt hn]⟩

theorem Reads.checked (h : Reads r p write) (c : α → Prop) [DecidablePred c] (e : ε) :
    Reads (checked r c e) (fun a => p a ∧ c a) write := by
  refine h.bind (q := fun a b => b = a ∧ c a) (w := fun _ _ => []) ?_ ?_ ?_
  · intro a _
    refine (reads_lift (p := fun _ => c a) (by simp) (by simp)).bind (q := fun _ b => b = a)
      (w := fun _ _ => []) (fun _ _ => reads_pure a) ?_ ?_
    · simp [and_comm]
    · simp
  · simp
  · rintro a _ - ⟨rfl, -⟩
    simp

theorem Reads.both (h : Reads r p write) (h' : Reads r' u v) :
    Reads (both r r') (fun x => p x.1 ∧ u x.2) fun x => write x.1 ++ v x.2 := by
  refine h.bind (q := fun a x => x.1 = a ∧ u x.2) (w := fun _ x => v x.2) ?_ ?_ ?_
  · intro a _
    refine h'.bind (q := fun b x => x = (a, b)) (w := fun _ _ => []) (fun _ _ => reads_pure _) ?_ ?_
    · simp [Prod.ext_iff, and_comm]
    · rintro b _ - rfl
      simp
  · simp
  · rintro a x - ⟨rfl, -⟩
    rfl

theorem Reads.many (h : Reads r p write) (n : ℕ) :
    Reads (many r n) (fun l => l.length = n ∧ ∀ a ∈ l, p a) (·.flatMap write) := by
  induction n with
  | zero =>
    refine (reads_pure []).congr ?_ ?_
    · rintro (_ | _) <;> simp
    · rintro _ rfl
      rfl
  | succ n ih =>
    refine h.bind (q := fun a l => ∃ l', l = a :: l' ∧ l'.length = n ∧ ∀ x ∈ l', p x)
      (w := fun _ l => l.tail.flatMap write) ?_ ?_ ?_
    · intro a _
      refine ih.bind (q := fun l' l => l = a :: l') (w := fun _ _ => []) (fun _ _ => reads_pure _)
        ?_ ?_
      · simp [and_comm]
      · rintro l' _ - rfl
        simp
    · rintro (_ | ⟨a, l⟩) <;> simp [and_left_comm]
    · rintro a _ - ⟨l', rfl, -⟩
      rfl

theorem Reads.collect (h : Reads r p write) {elementBytes n : ℕ}
    (hsmall : n * elementBytes < 2 ^ 63) :
    Reads (collect r elementBytes n) (fun l => l.length = n ∧ ∀ a ∈ l, p a) (·.flatMap write) := by
  have hok : withCapacity elementBytes n = .ok () := if_pos hsmall
  refine (reads_lift (p := fun _ => True) (by simp [hok]) (by simp [hok])).bind
    (q := fun _ l => l.length = n ∧ ∀ a ∈ l, p a) (fun _ _ => h.many n) ?_ ?_
  · simp
  · simp

/-- A code word that can be read is told from what follows it. -/
theorem Reads.append_iff (h : Reads r p write) {a b : α} (ha : p a) (hb : p b) {s t : Bytes} :
    write a ++ s = write b ++ t ↔ a = b ∧ s = t := by
  constructor
  · intro heq
    have hread := (h ⟨write a ++ s, _, Nat.lt_succ_self _⟩ 0 (Nat.zero_le _)).1
    cases (hread a s ha rfl).symm.trans (hread b t hb heq)
    exact ⟨rfl, append_cancel_left heq⟩
  · rintro ⟨rfl, rfl⟩
    rfl

end Reader

end Catomicals.Base
