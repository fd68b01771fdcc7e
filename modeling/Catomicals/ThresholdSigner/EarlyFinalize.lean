import Catomicals.ThresholdSigner.Orchestrator

/-!
# Finalizing before every frozen participant has sent a share

`finalize` counts the accepted shares against the threshold, but FROST aggregates over the frozen
commitments, which may be more. A call in between fails the session for good.
-/
namespace Catomicals.ThresholdSigner

open Base WalletStorage Method

/-- Aggregation needs a share for every commitment of the signing package. -/
def FrostSuite.NeedsEveryShare (F : FrostSuite) : Prop :=
  ∀ package shares keys signature, F.aggregate package shares keys = .ok signature →
    ∀ id, (package.signingCommitments.get id).isSome = true → (shares.get id).isSome = true

namespace ThresholdSessionMachine

variable {F : FrostSuite} {m m₀ : ThresholdSessionMachine F} {now : Time} {id : F.Identifier}

/-- The frozen commitment of the identifier has no share yet. -/
def Awaits (m : ThresholdSessionMachine F) (id : F.Identifier) : Prop :=
  (m.commitments.get id).isSome = true ∧ m.shares.get id = none

/-- The calls bring the honest shares still awaited, in any order and before the deadline. -/
inductive Completes : ThresholdSessionMachine F → List (Call F) → Prop
  | done {m : ThresholdSessionMachine F} (all : ∀ id, ¬m.Awaits id) : Completes m []
  | share {m p share time id rest} (intime : time ≤ m.deadline)
      (bound : m.participants.get p.signerId = some p)
      (named : F.participantIdentifier p.signerId = .ok id) (honest : m.ShareVerified id share)
      (awaited : m.Awaits id) (next : Completes (m.step (.addSignatureShare p share time)) rest) :
      Completes m (.addSignatureShare p share time :: rest)

lemma Completes.run {rest : List (Call F)} (h : Completes m rest)
    (hphase : m.phase = .collectingShares) :
    (m.run rest).phase = .collectingShares ∧ ∀ id, ¬(m.run rest).Awaits id := by
  induction h with
  | done all => exact ⟨hphase, all⟩
  | @share m p share time id _ intime bound named honest awaited _ ih =>
    have hcalls : m.Calls time _ _ := addSignatureShare_calls p share
    obtain ⟨⟨⟩, hadd⟩ :=
      hcalls.exists_ok ⟨(), _, hphase, intime, bound, id, named, honest, awaited.2, rfl⟩
    obtain ⟨-, -, -, id', -, -, -, hstep⟩ := hcalls.of_ok hadd
    apply ih
    rw [step, hstep]
    exact hphase

lemma Bound.not_aggregates (h : Bound m) (hneeds : F.NeedsEveryShare) (hawaits : m.Awaits id)
    (signature : F.Signature) : ¬m.Aggregates signature := by
  rintro ⟨session, hfrozen, hok⟩
  obtain ⟨-, rfl⟩ := h.frozen session hfrozen
  simp only [aggregateAndVerify, bind_eq_ok] at hok
  obtain ⟨_, hagg, -⟩ := hok
  simpa [hawaits.2] using hneeds _ _ _ _ hagg id hawaits.1

lemma finalize_of_awaits (h : Bound m) (hphase : m.phase = .collectingShares)
    (hnow : now ≤ m.deadline) (hneeds : F.NeedsEveryShare) (hawaits : m.Awaits id) :
    (finalize now).wp (fun _ m' => m' = if m.minSigners.toNat ≤ m.shares.card then
      m.fail now none "aggregate_verification_failed" else m) m := by
  have hrequire : m.Checks now (requirePhase .collectingShares now) _ := requirePhase_checks rfl
  obtain ⟨⟨⟩, hok⟩ := hrequire.exists_ok ⟨(), m, rfl, hphase, hnow⟩
  have hstart : requirePhase .collectingShares now m = (.ok (), m) :=
    Prod.ext hok (hrequire.of_ok hok).1
  rw [finalize, wp_bind, Method.wp_of_eq hstart]
  simp only [wp_iff]
  refine ⟨fun henough => ⟨fun session hfrozen => ?_, fun hnone => ?_⟩, fun hfew => ?_⟩
  · cases hsig : aggregateAndVerify session m.shares with
    | ok signature =>
      exact absurd ⟨session, hfrozen, hsig⟩ (h.not_aggregates hneeds hawaits signature)
    | error => exact (if_pos henough).symm
  · have hsome := (h.sharing hphase).1
    simp [hnone] at hsome
  · exact (if_neg hfew).symm

section New

variable {sessionId message policyDigest : Bytes32} {minSigners : UInt16} {deadline start : Time}
  {participants : List BoundParticipant} {keys : F.PublicKeys}

/-- A finalization before the deadline without the share of a frozen participant fails the session
exactly if the threshold is reached. With fewer shares it changes nothing, and the others are
accepted and lead to a signature, if FROST aggregates them. -/
theorem finalize_early (hneeds : F.NeedsEveryShare)
    (h : new sessionId message policyDigest minSigners deadline participants keys start = .ok m₀)
    (calls : List (Call F)) (hphase : (m₀.run calls).phase = .collectingShares)
    (hawaits : (m₀.run calls).Awaits id) (hnow : now ≤ deadline) :
    let m := m₀.run calls
    let m' := (finalize now m).2
    (m'.phase = .failed ↔ minSigners.toNat ≤ m.shares.card) ∧
      (m.shares.card < minSigners.toNat → m' = m ∧ ∀ rest time, m.Completes rest →
        time ≤ deadline → (∃ signature, (m.run rest).Aggregates signature) →
        ∃ signature, (finalize time (m'.run rest)).1 = .ok signature) := by
  intro m m'
  obtain ⟨hstart, -, hdead, hmin⟩ := new_eq_ok h
  have hsafe : Safe m₀ m := hstart.run calls
  have hm' : m' = if minSigners.toNat ≤ m.shares.card then
      m.fail now none "aggregate_verification_failed" else m := by
    rw [← hmin, ← hsafe.minSigners]
    refine finalize_of_awaits hsafe.bound hphase ?_ hneeds hawaits
    rwa [hsafe.deadline, hdead]
  refine ⟨?_, fun hfew => ?_⟩
  · rw [hm']
    split_ifs with henough
    · exact iff_of_true rfl henough
    · exact iff_of_false (by simp [m, hphase]) henough
  · rw [if_neg (by omega)] at hm'
    refine ⟨hm', fun rest time hrest htime haggregates => ?_⟩
    obtain ⟨hphase', hall⟩ := hrest.run hphase
    obtain ⟨signature, hsig⟩ := haggregates
    have hsafe' := hsafe.run rest
    rw [hm']
    refine finalize_calls.exists_ok ⟨signature, _, ⟨hphase', ?_, ?_, rfl⟩, hsig⟩
    · rwa [hsafe'.deadline, hdead]
    · refine (hsafe'.bound.sharing hphase').2.trans (Table.card_le_card fun id hid => ?_)
      by_contra hnone
      exact hall id ⟨hid, by simpa using hnone⟩

end New

/-- Linked crates whose aggregation succeeds if there is a share for every commitment. -/
def pairSuite : FrostSuite :=
  { openSuite with
    aggregate := fun package shares _ =>
      require (package.signingCommitments.All fun id _ => (shares.get id).isSome) "missing share" }

lemma needsEveryShare_pairSuite : pairSuite.NeedsEveryShare := by
  intro _ _ _ _ h id hid
  have hall := require_eq_ok.mp h
  obtain ⟨commitment, hcom⟩ := Option.isSome_iff_exists.mp hid
  exact hall id (Table.mem_keys_iff.mpr hid) commitment hcom

def otherSigner : BoundParticipant := ⟨2, 8, 1, .zeros⟩

def pairSession : Except OrchestrationError (ThresholdSessionMachine pairSuite) :=
  new .zeros .zeros .zeros 1 10 [soloSigner, otherSigner]
    ⟨(Table.empty.put (1 : UInt16) ()).put (2 : UInt16) (), ()⟩ 0

def pairCalls : List (Call pairSuite) :=
  [.addCommitment soloSigner () 1, .addCommitment otherSigner () 1, .freezeCommitments 2,
    .addSignatureShare soloSigner () 3]

lemma pairSession_shares : ∃ m₀, pairSession = .ok m₀ ∧
    (m₀.run pairCalls).phase = .collectingShares ∧ 1 ≤ (m₀.run pairCalls).shares.card ∧
    (m₀.run pairCalls).Awaits (2 : UInt16) := by
  have hrun : pairSession.toOption.map (fun m => decide
      ((m.run pairCalls).phase = .collectingShares ∧ 1 ≤ (m.run pairCalls).shares.card ∧
        ((m.run pairCalls).commitments.get (2 : UInt16)).isSome = true ∧
        ((m.run pairCalls).shares.get (2 : UInt16)).isNone = true)) = some true := by
    decide +kernel
  obtain ⟨m₀, hnew, h⟩ := exists_ok_of_toOption hrun
  obtain ⟨hphase, hcard, hcomd, hnone⟩ := of_decide_eq_true h
  exact ⟨m₀, hnew, hphase, hcard, hcomd, Option.isNone_iff_eq_none.mp hnone⟩

/-- One share of two is accepted, enough for the threshold; the finalization fails the session. -/
theorem finalize_early_fails : ∃ m₀, pairSession = .ok m₀ ∧
    (m₀.run pairCalls).phase = .collectingShares ∧ 1 ≤ (m₀.run pairCalls).shares.card ∧
    (m₀.run pairCalls).Awaits (2 : UInt16) ∧ (finalize 4 (m₀.run pairCalls)).2.phase = .failed := by
  obtain ⟨m₀, hnew, hphase, hcard, hawaits⟩ := pairSession_shares
  have hfinal : pairSession.toOption.map (fun m => (finalize 4 (m.run pairCalls)).2.phase) =
      some .failed := by
    decide +kernel
  rw [hnew] at hfinal
  exact ⟨m₀, hnew, hphase, hcard, hawaits, Option.some.inj hfinal⟩

theorem finalize_early_pair : ∃ m₀, pairSession = .ok m₀ ∧
    ((finalize 4 (m₀.run pairCalls)).2.phase = .failed ↔ 1 ≤ (m₀.run pairCalls).shares.card) := by
  obtain ⟨m₀, hnew, hphase, -, hawaits⟩ := pairSession_shares
  exact ⟨m₀, hnew, (finalize_early needsEveryShare_pairSuite hnew pairCalls hphase hawaits
    (by decide)).1⟩

end ThresholdSessionMachine

end Catomicals.ThresholdSigner
