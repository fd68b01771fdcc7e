import Catomicals.Trading.Verifiers
import Mathlib.Data.List.Sort
import Mathlib.Logic.Relation

/-!
# Competing spends of an order

The tracker of the candidates that spend one order outpoint, ordered by transaction id. Whatever
calls are made, there is at most one winner and every other candidate lost to it.
-/
namespace Catomicals.Trading

open Base Issuance List

inductive CandidateKind where
  | buy | cancel

inductive CandidateStatus where
  | submitted | pending
  | confirmed (height : UInt32)
  | conflicted (winner : Txid)
  deriving DecidableEq

structure Candidate where
  txid : Txid
  kind : CandidateKind
  status : CandidateStatus

structure CompetitionTracker where
  outpoint : OutPoint
  candidates : List Candidate

namespace CompetitionTracker

def new (outpoint : OutPoint) : CompetitionTracker := ⟨outpoint, []⟩

def KeyLe (a b : Candidate) : Prop := a.txid.bytes ≤ b.txid.bytes

instance : DecidableRel KeyLe := fun a b =>
  inferInstanceAs (Decidable (a.txid.bytes ≤ b.txid.bytes))

variable (t : CompetitionTracker)

def find (txid : Txid) : Option Candidate :=
  t.candidates.find? (·.txid = txid)

def winner : Option Txid :=
  t.candidates.findSome? fun c =>
    match c.status with
    | .confirmed _ => some c.txid
    | _ => none

/-- `candidates.insert` of a new key. -/
def insert (c : Candidate) : CompetitionTracker :=
  { t with candidates := t.candidates.orderedInsert KeyLe c }

def submit (txid : Txid) (kind : CandidateKind) : Except TradeError CompetitionTracker := do
  require ((t.find txid).isNone = true) .invalidCandidateState
  let status := t.winner.elim .submitted .conflicted
  return t.insert ⟨txid, kind, status⟩

def submitVerified (candidate : VerifiedTrade) : Except TradeError CompetitionTracker := do
  require (candidate.spentOrderOutpoint = t.outpoint) .wrongCompetitionOutpoint
  match candidate.path with
  | .buy => t.submit candidate.txid .buy
  | .cancel => t.submit candidate.txid .cancel
  | .list => .error .invalidCandidateState

def setStatus (txid : Txid) (status : CandidateStatus) : CompetitionTracker :=
  { t with candidates := t.candidates.map fun c =>
      if c.txid = txid then { c with status := status } else c }

def markPending (txid : Txid) : Except TradeError CompetitionTracker := do
  let c ← orError (t.find txid) .invalidCandidateState
  require (c.status = .submitted) .invalidCandidateState
  return t.setStatus txid .pending

/-- Rewrite every entry: the winner is confirmed, the others lose to it. -/
def resolve (winner : Txid) (height : UInt32) : CompetitionTracker :=
  { t with candidates := t.candidates.map fun c =>
      { c with status := if c.txid = winner then .confirmed height else .conflicted winner } }

def confirm (winner : Txid) (height : UInt32) : Except TradeError CompetitionTracker := do
  let c ← orError (t.find winner) .invalidCandidateState
  require (c.status = .submitted ∨ c.status = .pending) .invalidCandidateState
  return t.resolve winner height

def status (txid : Txid) : Option CandidateStatus :=
  (t.find txid).map Candidate.status

inductive Call where
  | submit (txid : Txid) (kind : CandidateKind)
  | submitVerified (candidate : VerifiedTrade)
  | markPending (txid : Txid)
  | confirm (winner : Txid) (height : UInt32)

def perform : Call → Except TradeError CompetitionTracker
  | .submit txid kind => t.submit txid kind
  | .submitVerified candidate => t.submitVerified candidate
  | .markPending txid => t.markPending txid
  | .confirm winner height => t.confirm winner height

/-- The tracker after a call; a failed call changes nothing. -/
def step (c : Call) : CompetitionTracker :=
  match t.perform c with
  | .ok t' => t'
  | .error _ => t

def run (calls : List Call) : CompetitionTracker := calls.foldl step t

inductive Moves : CompetitionTracker → CompetitionTracker → Prop
  | submit {t txid} (kind : CandidateKind)
      (fresh : t.find txid = none) :
      Moves t (t.insert ⟨txid, kind, t.winner.elim .submitted .conflicted⟩)
  | pending {t txid c} (found : t.find txid = some c)
      (submitted : c.status = .submitted) : Moves t (t.setStatus txid .pending)
  | confirm {t winner c} (height : UInt32)
      (found : t.find winner = some c) (live : c.status = .submitted ∨ c.status = .pending) :
      Moves t (t.resolve winner height)

variable {t t' : CompetitionTracker} {txid : Txid} {w : Txid} {height : UInt32}

lemma submit_moves {kind : CandidateKind} (h : t.submit txid kind = .ok t') : Moves t t' := by
  simp only [submit, ok_iff] at h
  obtain ⟨hfresh, rfl⟩ := h
  exact .submit kind (Option.isNone_iff_eq_none.mp hfresh)

lemma perform_moves {c : Call} (h : t.perform c = .ok t') : Moves t t' := by
  cases c with
  | submit => exact submit_moves h
  | submitVerified =>
    simp only [perform, submitVerified, ok_iff] at h
    obtain ⟨-, h⟩ := h
    split at h
    · exact submit_moves h
    · exact submit_moves h
    · simp at h
  | markPending =>
    simp only [perform, markPending, ok_iff] at h
    obtain ⟨c, hfound, hsubm, rfl⟩ := h
    exact .pending hfound hsubm
  | confirm _ height =>
    simp only [perform, confirm, ok_iff] at h
    obtain ⟨c, hfound, hlive, rfl⟩ := h
    exact .confirm height hfound hlive

variable (t)

lemma step_cases (c : Call) : Moves t (t.step c) ∨ t.step c = t := by
  unfold step
  cases h : t.perform c with
  | ok => exact .inl (perform_moves h)
  | error => exact .inr rfl

def Keyed : Prop := (t.candidates.map Candidate.txid).Nodup

def Undecided : Prop :=
  ∀ c ∈ t.candidates, c.status = .submitted ∨ c.status = .pending

/-- One candidate has won and every other one lost to it. -/
structure Won (w : Txid) (height : UInt32) : Prop where
  listed : ∃ c ∈ t.candidates, c.txid = w
  statuses : ∀ c ∈ t.candidates,
    c.status = if c.txid = w then .confirmed height else .conflicted w

variable {t}

lemma find_eq_some {c : Candidate} (h : t.find txid = some c) :
    c ∈ t.candidates ∧ c.txid = txid := by
  refine ⟨mem_of_find?_eq_some h, ?_⟩
  simpa using find?_some h

lemma find_eq_none (h : t.find txid = none) : ∀ c ∈ t.candidates, c.txid ≠ txid := by
  intro c hc
  simpa using find?_eq_none.mp h c hc

lemma Keyed.status_eq_some_iff (h : Keyed t) {s : CandidateStatus} :
    t.status txid = some s ↔ ∃ c ∈ t.candidates, c.txid = txid ∧ c.status = s := by
  constructor
  · intro hs
    obtain ⟨c, hfound, hstat⟩ := Option.map_eq_some_iff.mp hs
    obtain ⟨hmem, htxid⟩ := find_eq_some hfound
    exact ⟨c, hmem, htxid, hstat⟩
  · rintro ⟨c, hmem, htxid, hstat⟩
    have hfound : t.find txid = some c := by
      cases hfind : t.find txid with
      | none => exact absurd htxid (find_eq_none hfind c hmem)
      | some =>
        obtain ⟨hd, hdtxid⟩ := find_eq_some hfind
        rw [inj_on_of_nodup_map h hd hmem (hdtxid.trans htxid.symm)]
    rw [status, hfound, Option.map_some, hstat]

lemma Won.winner_eq (h : Won t w height) : t.winner = some w := by
  obtain ⟨c, hc, hcw⟩ := h.listed
  cases hwin : t.winner with
  | none =>
    have hnone := findSome?_eq_none_iff.mp hwin c hc
    rw [h.statuses c hc, if_pos hcw] at hnone
    simp at hnone
  | some x =>
    obtain ⟨d, hd, hx⟩ := exists_of_findSome?_eq_some hwin
    rw [h.statuses d hd] at hx
    split_ifs at hx with hdw
    obtain rfl : d.txid = x := by simpa using hx
    rw [hdw]

lemma Undecided.winner_eq (h : Undecided t) : t.winner = none := by
  apply findSome?_eq_none_iff.mpr
  intro c hc
  rcases h c hc with hs | hs <;> rw [hs]

lemma Keyed.moves (h : Keyed t) (hmoves : Moves t t') : Keyed t' := by
  unfold Keyed at h ⊢
  cases hmoves with
  | @submit txid kind fresh =>
    have hperm := (perm_orderedInsert KeyLe
      ⟨txid, kind, t.winner.elim .submitted .conflicted⟩ t.candidates).map Candidate.txid
    refine hperm.nodup_iff.mpr ?_
    rw [map_cons, nodup_cons]
    refine ⟨?_, h⟩
    intro hmem
    obtain ⟨c, hc, hct⟩ := mem_map.mp hmem
    exact find_eq_none fresh c hc hct
  | @pending txid =>
    have hkeys : (t.setStatus txid .pending).candidates.map Candidate.txid =
        t.candidates.map Candidate.txid := by
      simp only [setStatus, map_map]
      apply map_congr_left
      intro d _
      simp only [Function.comp]
      split_ifs <;> rfl
    rwa [hkeys]
  | confirm =>
    simpa only [resolve, map_map, Function.comp_def] using h

lemma Won.moves (h : Won t w height) (hmoves : Moves t t') : Won t' w height := by
  obtain ⟨c₀, hc₀, hw₀⟩ := h.listed
  cases hmoves with
  | @submit txid _ fresh =>
    have hne : txid ≠ w := by
      rintro rfl
      exact find_eq_none fresh c₀ hc₀ hw₀
    refine ⟨⟨c₀, (mem_orderedInsert KeyLe).mpr (.inr hc₀), hw₀⟩, ?_⟩
    intro c hc
    rcases (mem_orderedInsert KeyLe).mp hc with rfl | hold
    · rw [if_neg hne, h.winner_eq]
      rfl
    · exact h.statuses c hold
  | @pending _ c found submitted =>
    -- An entry of a decided competition is not waiting to be seen.
    have hstat := h.statuses c (find_eq_some found).1
    rw [submitted] at hstat
    split_ifs at hstat
  | @confirm _ c _ found live =>
    have hstat := h.statuses c (find_eq_some found).1
    rcases live with hlive | hlive <;> rw [hlive] at hstat <;> split_ifs at hstat

lemma Undecided.moves (h : Undecided t) (hmoves : Moves t t') :
    Undecided t' ∨ ∃ w height, Won t' w height := by
  cases hmoves with
  | @submit =>
    left
    intro c hc
    rcases (mem_orderedInsert KeyLe).mp hc with rfl | hold
    · left
      rw [h.winner_eq]
      rfl
    · exact h c hold
  | @pending =>
    left
    intro d hd
    obtain ⟨e, he, rfl⟩ := mem_map.mp hd
    split_ifs
    · exact .inr rfl
    · exact h e he
  | @confirm winner _ height found =>
    right
    obtain ⟨hmem, htxid⟩ := find_eq_some found
    refine ⟨winner, height, ⟨_, mem_map_of_mem hmem, htxid⟩, ?_⟩
    intro d hd
    obtain ⟨e, -, rfl⟩ := mem_map.mp hd
    rfl

def Settled (t : CompetitionTracker) : Prop :=
  Keyed t ∧ (Undecided t ∨ ∃ w height, Won t w height)

lemma Settled.step (h : Settled t) (c : Call) : Settled (t.step c) := by
  rcases step_cases t c with hmoves | hsame
  · refine ⟨h.1.moves hmoves, ?_⟩
    rcases h.2 with hopen | ⟨w, height, hwon⟩
    · exact hopen.moves hmoves
    · exact .inr ⟨w, height, hwon.moves hmoves⟩
  · rwa [hsame]

lemma Settled.run (h : Settled t) (calls : List Call) : Settled (t.run calls) := by
  induction calls generalizing t with
  | nil => exact h
  | cons c _ ih => exact ih (h.step c)

lemma settled_new (outpoint : OutPoint) : Settled (new outpoint) := by
  refine ⟨nodup_nil, .inl ?_⟩
  intro c hc
  simp [new] at hc

lemma Won.run (h : Won t w height) (calls : List Call) : Won (t.run calls) w height := by
  induction calls generalizing t with
  | nil => exact h
  | cons c _ ih =>
    apply ih
    rcases step_cases t c with hmoves | hsame
    · exact h.moves hmoves
    · rwa [hsame]

lemma Settled.won_of_confirmed (h : Settled t) (hw : t.status w = some (.confirmed height)) :
    Won t w height := by
  obtain ⟨c, hc, hcw, hstat⟩ := h.1.status_eq_some_iff.mp hw
  rcases h.2 with hopen | ⟨x, k, hwon⟩
  · rcases hopen c hc with hs | hs <;> rw [hs] at hstat <;> simp at hstat
  · have hx := hwon.statuses c hc
    rw [hstat] at hx
    split_ifs at hx with hcx
    obtain ⟨rfl⟩ := CandidateStatus.confirmed.inj hx
    rwa [← hcw, hcx]

lemma Won.status_of_ne {x : Txid} {s : CandidateStatus} (hkeyed : Keyed t) (h : Won t w height)
    (hne : x ≠ w) (hs : t.status x = some s) : s = .conflicted w := by
  obtain ⟨c, hc, hcx, rfl⟩ := hkeyed.status_eq_some_iff.mp hs
  rw [h.statuses c hc, if_neg (by rw [hcx]; exact hne)]

lemma Won.status_eq (hkeyed : Keyed t) (h : Won t w height) :
    t.status w = some (.confirmed height) := by
  obtain ⟨c, hc, hcw⟩ := h.listed
  exact hkeyed.status_eq_some_iff.mpr ⟨c, hc, hcw, by rw [h.statuses c hc, if_pos hcw]⟩

/-- There is one winner at most, all others lost to it, nobody loses without one, and it stays one
at its height. -/
theorem run_single_winner (outpoint : OutPoint) (calls : List Call) :
    let t := (new outpoint).run calls
    (∀ a b ha hb, t.status a = some (.confirmed ha) → t.status b = some (.confirmed hb) → a = b) ∧
      (∀ w height, t.status w = some (.confirmed height) →
        ∀ x s, x ≠ w → t.status x = some s → s = .conflicted w) ∧
      ((∀ w height, t.status w ≠ some (.confirmed height)) →
        ∀ x w, t.status x ≠ some (.conflicted w)) ∧
      ∀ w height, t.status w = some (.confirmed height) →
        ∀ later, (t.run later).status w = some (.confirmed height) := by
  intro t
  have hsettled : Settled t := (settled_new outpoint).run calls
  refine ⟨?_, ?_, ?_, ?_⟩
  · intro a b _ _ hwa hwb
    by_contra hne
    have hlost := (hsettled.won_of_confirmed hwa).status_of_ne hsettled.1 (Ne.symm hne) hwb
    simp at hlost
  · intro w height hw x s hne hs
    exact (hsettled.won_of_confirmed hw).status_of_ne hsettled.1 hne hs
  · intro hnone x w hx
    rcases hsettled.2 with hopen | ⟨y, k, hwon⟩
    · obtain ⟨c, hc, -, hstat⟩ := hsettled.1.status_eq_some_iff.mp hx
      rcases hopen c hc with hs | hs <;> rw [hs] at hstat <;> simp at hstat
    · exact hnone y k (hwon.status_eq hsettled.1)
  · intro w _ hw later
    have hwon := hsettled.won_of_confirmed hw
    exact (hwon.run later).status_eq (hsettled.run later).1

end CompetitionTracker

end Catomicals.Trading
