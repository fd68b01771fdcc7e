import Catomicals.Base.Outcome
import Mathlib.Data.Nat.Notation

/-!
# Calls on a mutable state

A call returns a result or an error, and keeps what it changed before it failed. `wp` is the
condition under which it ends as a postcondition says, with one rule for each way to build a call.
-/
namespace Catomicals.Base

/-- A call on a state: how it ends, and the state it leaves. -/
def Method (σ ε α : Type) := σ → Except ε α × σ

namespace Method

variable {σ τ ε δ α β : Type}

instance : Monad (Method σ ε) where
  pure a := fun s => (.ok a, s)
  bind x f := fun s =>
    match x s with
    | (.ok a, s') => f a s'
    | (.error e, s') => (.error e, s')

def get : Method σ ε σ := fun s => (.ok s, s)

def modify (f : σ → σ) : Method σ ε Unit := fun s => (.ok (), f s)

/-- A computation that does not touch the state. -/
def lift (x : Except ε α) : Method σ ε α := fun s => (x, s)

def error (e : ε) : Method σ ε α := lift (.error e)

/-- A call on a part of the state, with its errors translated. -/
def zoom (part : σ → τ) (put : σ → τ → σ) (translate : δ → ε) (x : Method τ δ α) :
    Method σ ε α := fun s =>
  match x (part s) with
  | (.ok a, t) => (.ok a, put s t)
  | (.error e, t) => (.error (translate e), put s t)

/-- A transaction: a failure leaves the state as it was. -/
def atomically (f : σ → Except δ σ) (translate : δ → ε) : Method σ ε Unit := fun s =>
  match f s with
  | .ok s' => (.ok (), s')
  | .error e => (.error (translate e), s)

/-- A call that also uses a value of its own, which is dropped afterwards. -/
def withLocal (t : τ) (x : Method (σ × τ) ε α) : Method σ ε α := fun s =>
  ((x (s, t)).1, (x (s, t)).2.1)

/-- A call that first takes the next entry of a script of faults, and may fail by it. -/
def orFault (translate : δ → ε) (x : Method σ ε α) : Method (σ × List (Option δ)) ε α := fun s =>
  match s.2 with
  | some e :: faults => (.error (translate e), s.1, faults)
  | none :: faults => ((x s.1).1, (x s.1).2, faults)
  | [] => ((x s.1).1, (x s.1).2, [])

def void (x : Method σ ε α) : Method σ ε Unit := do
  let _ ← x
  return ()

/-- The call ends as the postcondition says. -/
def wp (x : Method σ ε α) (Q : Except ε α → σ → Prop) (s : σ) : Prop := Q (x s).1 (x s).2

section Rules

variable {Q : Except ε α → σ → Prop} {s : σ} {f : β → Method σ ε α} {translate : δ → ε}
  {x : Method σ ε α} {b : β}

theorem wp_bind {x : Method σ ε β} :
    wp (x >>= f) Q s ↔ wp x (fun r s' =>
      match r with
      | .ok b => wp (f b) Q s'
      | .error e => Q (.error e) s') s := by
  simp only [wp, bind]
  rcases x s with ⟨_ | _, _⟩ <;> rfl

theorem wp_get {Q : Except ε σ → σ → Prop} : wp get Q s ↔ Q (.ok s) s := Iff.rfl

theorem wp_lift {x : Except ε α} : wp (lift x) Q s ↔ Q x s := Iff.rfl

@[simp] theorem wp_error {e : ε} : wp (error e) Q s ↔ Q (.error e) s := Iff.rfl

@[simp] theorem wp_ite {c : Prop} [Decidable c] {y : Method σ ε α} :
    wp (if c then x else y) Q s ↔ (c → wp x Q s) ∧ (¬c → wp y Q s) := by
  by_cases hc : c <;> simp [hc]

theorem wp_zoom {part : σ → τ} {put : σ → τ → σ} {x : Method τ δ α} :
    wp (zoom part put translate x) Q s ↔
      wp x (fun r t => Q (r.mapError translate) (put s t)) (part s) := by
  simp only [wp, zoom]
  rcases x (part s) with ⟨_ | _, _⟩ <;> rfl

theorem wp_atomically {Q : Except ε Unit → σ → Prop} {f : σ → Except δ σ} :
    wp (atomically f translate) Q s ↔
      (∀ s', f s = .ok s' → Q (.ok ()) s') ∧ ∀ e, f s = .error e → Q (.error (translate e)) s := by
  simp only [wp, atomically]
  cases f s <;> simp

@[simp] theorem wp_withLocal {t : τ} {x : Method (σ × τ) ε α} :
    wp (withLocal t x) Q s ↔ wp x (fun r st => Q r st.1) (s, t) := Iff.rfl

/-- A call with faults ends as the call does, or fails with a fault and changes nothing. -/
theorem wp_orFault {s : σ × List (Option δ)} (hfault : ∀ e, Q (.error (translate e)) s.1)
    (h : wp x Q s.1) :
    wp (orFault translate x) (fun r s' => Q r s'.1) s := by
  obtain ⟨state, faults⟩ := s
  match faults with
  | [] => exact h
  | none :: _ => exact h
  | some e :: _ => exact hfault e

theorem bind_of_ok {x : Method σ ε β} {s' : σ} (h : x s = (.ok b, s')) : (x >>= f) s = f b s' := by
  simp only [bind, h]

theorem lift_bind_of_ok {x : Except ε β} (h : x = .ok b) : (lift x >>= f) s = f b s :=
  bind_of_ok (congrArg (·, s) h)

theorem wp_lift_bind {x : Except ε β} (herror : ∀ e, Q (.error e) s)
    (hf : ∀ b, x = .ok b → wp (f b) Q s) : wp (lift x >>= f) Q s := by
  rw [wp_bind, wp_lift]
  cases x with
  | ok b => exact hf b rfl
  | error e => exact herror e

theorem wp_lift_bind_of_ok {x : Except ε β} (h : x = .ok b) (hf : wp (f b) Q s) :
    wp (lift x >>= f) Q s := by
  rw [wp, lift_bind_of_ok h]
  exact hf

theorem wp_lift_bind_of_error {x : Except ε β} {e : ε} (h : x = .error e) (hQ : Q (.error e) s) :
    wp (lift x >>= f) Q s := by
  rw [h]
  exact hQ

theorem wp_get_bind {f : σ → Method σ ε α} (hf : wp (f s) Q s) : wp (get >>= f) Q s := hf

theorem wp_of_eq {r : Except ε α} {s' : σ} (h : x s = (r, s')) : wp x Q s ↔ Q r s' := by
  rw [wp, h]

theorem snd_bind_pure {x : Method σ ε β} {f : β → α} :
    ((x >>= fun b => pure (f b)) s).2 = (x s).2 := by
  simp only [bind]
  rcases x s with ⟨_ | _, _⟩ <;> rfl

theorem wp_mono {Q' : Except ε α → σ → Prop} (h : wp x Q s) (hQ : ∀ r s', Q r s' → Q' r s') :
    wp x Q' s := hQ _ _ h

end Rules

/-- The state after a sequence of calls, whether they succeed or fail. -/
def after (call : β → Method σ ε α) (s : σ) (bs : List β) : σ :=
  bs.foldl (fun s b => (call b s).2) s

section After

variable {call : β → Method σ ε α} {s : σ}

theorem after_take_succ {bs : List β} {n : ℕ} {b : β} (h : bs[n]? = some b) :
    after call s (bs.take (n + 1)) = (call b (after call s (bs.take n))).2 := by
  simp only [after]
  rw [List.take_add_one, h, List.foldl_append]
  rfl

theorem after_invariant {I : σ → Prop} (h : I s) (hcall : ∀ b t, I t → I (call b t).2)
    (bs : List β) : I (after call s bs) := by
  induction bs generalizing s with
  | nil => exact h
  | cons b _ ih => exact ih (hcall b s h)

/-- What every call of a sequence keeps at its place holds after every part of it. -/
theorem after_take_keeps {I : σ → Prop} {bs : List β} (h : I s)
    (hcall : ∀ n b, bs[n]? = some b → I (after call s (bs.take n)) →
      I (call b (after call s (bs.take n))).2) (n : ℕ) : I (after call s (bs.take n)) := by
  induction n with
  | zero => exact h
  | succ n ih =>
    cases hb : bs[n]? with
    | none =>
      have hlen : bs.length ≤ n := List.getElem?_eq_none_iff.mp hb
      rw [List.take_of_length_le (by omega)]
      rwa [List.take_of_length_le hlen] at ih
    | some b =>
      rw [after_take_succ hb]
      exact hcall n b hb ih

end After

end Method

section Checks

variable {ε α : Type}

@[simp] theorem mapError_ok {δ : Type} {a : α} {f : δ → ε} : (Except.ok a).mapError f = .ok a := rfl

@[simp] theorem mapError_eq_ok {δ : Type} {x : Except δ α} {f : δ → ε} {a : α} :
    x.mapError f = .ok a ↔ x = .ok a := by
  cases x <;> simp [Except.mapError]

end Checks

namespace Method

/-- What the steps that methods are made of need, as one set of rules. -/
@[simp] theorem wp_iff {σ ε : Type} {s : σ} :
    (∀ {α β : Type} {x : Method σ ε β} {f : β → Method σ ε α} {Q : Except ε α → σ → Prop},
      wp (x >>= f) Q s ↔ wp x (fun r s' =>
        match r with
        | .ok b => wp (f b) Q s'
        | .error e => Q (.error e) s') s) ∧
    (∀ {Q : Except ε σ → σ → Prop}, wp get Q s ↔ Q (.ok s) s) ∧
    (∀ {Q : Except ε Unit → σ → Prop} {f : σ → σ}, wp (modify f) Q s ↔ Q (.ok ()) (f s)) ∧
    (∀ {α : Type} {Q : Except ε α → σ → Prop} {a : α},
      wp (pure a : Method σ ε α) Q s ↔ Q (.ok a) s) ∧
    (∀ {Q : Except ε Unit → σ → Prop} {c : Prop} [Decidable c] {e : ε},
      wp (lift (require c e)) Q s ↔ (c → Q (.ok ()) s) ∧ (¬c → Q (.error e) s)) ∧
    (∀ {α δ : Type} {Q : Except ε α → σ → Prop} {x : Except δ α} {f : δ → ε},
      wp (lift (x.mapError f)) Q s ↔
        (∀ a, x = .ok a → Q (.ok a) s) ∧ ∀ e, x = .error e → Q (.error (f e)) s) ∧
    ∀ {α : Type} {Q : Except ε α → σ → Prop} {x : Option α} {e : ε},
      wp (lift (orError x e)) Q s ↔
        (∀ a, x = some a → Q (.ok a) s) ∧ (x = none → Q (.error e) s) := by
  refine ⟨wp_bind, wp_get, Iff.rfl, Iff.rfl, ?_, ?_, ?_⟩
  · intro _ c _ _
    by_cases hc : c <;> simp [wp_lift, require, hc]
  · intro _ _ _ x _
    cases x <;> simp [wp_lift, Except.mapError]
  · intro _ _ x _
    cases x <;> simp [wp_lift, orError]

end Method

end Catomicals.Base
