import Catomicals.WalletStorage.Epochs

/-!
# One approval, one use

Three calls spend an authorization: for a signing job, a personal signing operation or a FROST nonce
claim. All three consume it in the transaction that creates, so it is never spent twice.
-/
namespace Catomicals.WalletStorage

open Base Domain Rows List

variable {s s' : Authority} {m : Option Creation} {a : AuthorizationRow}

/-- An authorization later on: granted for the same, and still consumed if it was. -/
structure AuthorizationRow.Keeps (a a' : AuthorizationRow) : Prop where
  walletId : a'.walletId = a.walletId
  intentId : a'.intentId = a.intentId
  epoch : a'.epoch = a.epoch
  bindingDigest : a'.bindingDigest = a.bindingDigest
  consumedAt : ∀ t, a.consumedAt = some t → a'.consumedAt = some t

lemma AuthorizationRow.Keeps.refl (a : AuthorizationRow) : a.Keeps a :=
  ⟨rfl, rfl, rfl, rfl, fun _ h => h⟩

lemma AuthorizationRow.Keeps.trans {b c : AuthorizationRow} (h₁ : a.Keeps b) (h₂ : b.Keeps c) :
    a.Keeps c where
  walletId := h₂.walletId.trans h₁.walletId
  intentId := h₂.intentId.trans h₁.intentId
  epoch := h₂.epoch.trans h₁.epoch
  bindingDigest := h₂.bindingDigest.trans h₁.bindingDigest
  consumedAt := fun t ht => h₂.consumedAt t (h₁.consumedAt t ht)

lemma AuthorizationRow.keeps_consumed (h : a.consumedAt = none) (now : Time) :
    a.Keeps (a.consumed now) :=
  ⟨rfl, rfl, rfl, rfl, fun t ht => by simp [h] at ht⟩

section Effect

variable (h : Effect s m s')
include h

/-- An authorization is inserted for an intent that has none, or the table keeps its rows. -/
theorem Effect.authorizations_cases :
    (∃ a, Inserted s.authorizations a s'.authorizations ∧
      ∀ id b, s.authorizations.get id = some b → b.intentId ≠ a.intentId) ∨
      Evolves AuthorizationRow.Keeps (fun _ => False) s.authorizations s'.authorizations := by
  cases h
  case approved intentEpoch forIntent own fresh only inserted changed =>
    refine .inl ⟨_, inserted, ?_⟩
    rwa [forIntent]
  case authorizationConsumed available legacy changed =>
    exact .inr (changed.evolves .refl (AuthorizationRow.keeps_consumed available _))
  case frostNonceClaimed spent | jobCreated spent _ _ _ _ _ _
      | operationCreated spent _ _ _ _ _ _ =>
    exact .inr (spent.consumed.evolves .refl (AuthorizationRow.keeps_consumed spent.available.1 _))
  case cutover now =>
    exact .inr (update_evolves
      (f := fun a : AuthorizationRow => { a with invalidatedAt := some now }) (fun _ => rfl)
      AuthorizationRow.Keeps.refl fun a => ⟨rfl, rfl, rfl, rfl, fun _ h => h⟩)
  all_goals exact .inr (evolves_refl .refl)

lemma Effect.authorizations :
    Evolves AuthorizationRow.Keeps (fun _ => True) s.authorizations s'.authorizations := by
  rcases h.authorizations_cases with ⟨_, hins, -⟩ | hevolves
  · exact hins.evolves .refl trivial
  · exact hevolves.mono (fun _ _ hkeeps => hkeeps) fun _ _ => trivial

lemma Effect.authorizations_unique (hs : Unique AuthorizationRow.intentId s.authorizations) :
    Unique AuthorizationRow.intentId s'.authorizations := by
  refine hs.step ?_
  rcases h.authorizations_cases with ⟨a, hins, honly⟩ | hevolves
  · exact .inl ⟨a, hins, honly⟩
  · exact .inr (hevolves.mono (fun _ _ hkeeps => hkeeps.intentId) fun _ => id)

/-- Nonce claims are never taken back; a cutover only marks them. -/
theorem Effect.nonceClaims :
    Evolves (fun n n' => ∃ t, n' = { n with invalidatedAt := t })
      (fun n => n.origin.isSome → m.map Creation.bindingDigest = some n.fingerprint)
      s.nonceClaims s'.nonceClaims := by
  have hrefl : ∀ n : NonceClaimRow, ∃ t, n = { n with invalidatedAt := t } :=
    fun n => ⟨n.invalidatedAt, rfl⟩
  cases h
  case nonceClaimed free inserted =>
    exact inserted.evolves hrefl fun hsome => by simp [free] at hsome
  case frostNonceClaimed spent | jobCreated spent _ _ _ _ _ _
      | operationCreated spent _ _ _ _ _ _ =>
    exact spent.claimed.evolves hrefl fun _ => rfl
  case cutover now =>
    exact update_evolves (f := fun n : NonceClaimRow => { n with invalidatedAt := some now })
      (fun _ => rfl) hrefl fun n => ⟨some now, rfl⟩
  all_goals exact evolves_refl hrefl

end Effect

def Creation.HasRow (s : Authority) (c : Creation) : Prop :=
  match c.kind with
  | .job id => ∃ j, s.jobs.get id = some j ∧ j.intentId = c.intentId ∧ j.sessionId = c.sessionId ∧
      j.operationBindingDigest = some c.bindingDigest
  | .operation id => ∃ o, s.operations.get id = some o ∧ o.intentId = c.intentId ∧
      o.sessionId = c.sessionId ∧ o.operationBindingDigest = c.bindingDigest
  | .frostNonce => True

/-- What was created carries the intent and epoch of the authorization and the session of the
intent, a job also the binding digest; the authorization is consumed. -/
structure Creation.Carried (s : Authority) (c : Creation) : Prop where
  authorization : ∃ a, s.authorizations.get c.authorizationId = some a ∧ a.consumedAt.isSome ∧
    a.intentId = c.intentId ∧ a.epoch = c.epoch ∧
    ∀ id, c.kind = .job id → a.bindingDigest = c.bindingDigest
  intent : ∃ i, s.intents.get c.intentId = some i ∧ i.v2.isSome ∧ i.sessionId = c.sessionId ∧
    i.epoch = c.epoch
  claim : ∃ n o, s.nonceClaims.get c.bindingDigest = some n ∧ n.origin = some o ∧
    o.authorizationId = c.authorizationId ∧ o.intentId = c.intentId ∧
    n.sessionId = c.sessionId ∧ n.epoch = c.epoch
  row : c.HasRow s

section Carried

variable {c : Creation}

lemma Creation.HasRow.step (hc : c.HasRow s) (h : Effect s m s') : c.HasRow s' := by
  unfold Creation.HasRow at hc ⊢
  split at hc
  · obtain ⟨j, hj, hint, hsess, hdig⟩ := hc
    obtain ⟨j', hj', hsame, hdig', -⟩ := h.jobs.keeps _ j hj
    exact ⟨j', hj', hsame ▸ hint, hsame ▸ hsess, hdig'.trans hdig⟩
  · obtain ⟨o, ho, hint, hsess, hdig⟩ := hc
    obtain ⟨o', ho', hsame, -⟩ := h.operations.keeps _ o ho
    exact ⟨o', ho', hsame ▸ hint, hsame ▸ hsess, hsame ▸ hdig⟩
  · trivial

theorem Creation.Carried.step (hc : c.Carried s) (h : Effect s m s') : c.Carried s' where
  authorization := by
    obtain ⟨a, ha, hcons, hint, hepoch, hdig⟩ := hc.authorization
    obtain ⟨a', ha', hkeeps⟩ := h.authorizations.keeps _ a ha
    obtain ⟨t, ht⟩ := Option.isSome_iff_exists.mp hcons
    refine ⟨a', ha', ?_, hkeeps.intentId.trans hint, hkeeps.epoch.trans hepoch,
      fun id hkind => hkeeps.bindingDigest.trans (hdig id hkind)⟩
    rw [hkeeps.consumedAt t ht]
    rfl
  intent := by
    obtain ⟨i, hi, hv2, hsess, hepoch⟩ := hc.intent
    obtain ⟨_, hi', _, _, rfl⟩ := h.intents.keeps _ i hi
    exact ⟨_, hi', hv2, hsess, hepoch⟩
  claim := by
    obtain ⟨n, o, hn, horigin, hauth, hint, hsess, hepoch⟩ := hc.claim
    obtain ⟨_, hn', _, rfl⟩ := h.nonceClaims.keeps _ n hn
    exact ⟨_, o, hn', horigin, hauth, hint, hsess, hepoch⟩
  row := hc.row.step h

variable {authorizations : Rows AuthorizationRow.id} {nonceClaims : Rows NonceClaimRow.fingerprint}
  {intents : Rows IntentRow.id}

lemma Spent.get_authorization {i : IntentRow} {sp : Spending} {now : Time}
    (h : Spent s a i sp now authorizations nonceClaims intents) :
    s.authorizations.get sp.origin.authorizationId = some a := by
  rw [← h.authorizationId]
  exact h.consumed.1

lemma Spent.carried {i : IntentRow} {sp : Spending} {now : Time} {kind : CreationKind}
    (h : Spent s a i sp now authorizations nonceClaims intents)
    (hauths : s'.authorizations = authorizations)
    (hnonceClaims : s'.nonceClaims = nonceClaims) (hintents : s'.intents = intents)
    (hdig : ∀ id, kind = .job id → a.bindingDigest = sp.fingerprint)
    (hrow : (sp.creation kind s.epoch).HasRow s') : (sp.creation kind s.epoch).Carried s' := by
  subst hauths hnonceClaims hintents
  constructor
  · refine ⟨a.consumed now, ?_, rfl, h.forIntent.trans h.intentId, h.authorizationOwn.2, hdig⟩
    exact (h.consumed.2.2 _).trans (if_pos h.authorizationId.symm)
  · refine ⟨i.moved .signing now, (h.moved.2.2 _).trans (if_pos h.intentId.symm), ?_, h.session,
      h.intentOwn.2⟩
    show i.v2.isSome
    have hsgn := h.signer
    cases hv2 : i.v2 with
    | none => simp [hv2] at hsgn
    | some => rfl
  · exact ⟨_, sp.origin, (h.claimed.2 _).trans (if_pos rfl), rfl, rfl, rfl, rfl, rfl⟩
  · exact hrow

/-- A call creates from an available authorization, and what it creates carries what was
approved. -/
theorem Effect.created (h : Effect s (some c) s') :
    (∃ a, s.authorizations.get c.authorizationId = some a ∧ a.consumedAt = none) ∧
      c.Carried s' := by
  cases h
  case frostNonceClaimed a i sp now _ _ _ spent =>
    refine ⟨⟨a, spent.get_authorization, spent.available.1⟩, ?_⟩
    exact spent.carried rfl rfl rfl (fun _ hkind => by cases hkind) trivial
  case jobCreated a i sp now _ _ _ _ job spent digest own forIntent session only inserted =>
    refine ⟨⟨a, spent.get_authorization, spent.available.1⟩, ?_⟩
    refine spent.carried rfl rfl rfl (fun _ _ => digest) ?_
    refine ⟨_, (inserted.2 _).trans (if_pos rfl), ?_, session, rfl⟩
    exact forIntent.trans spent.intentId
  case operationCreated a i sp now _ _ _ _ o spent fingerprint own forIntent session valid
      inserted =>
    refine ⟨⟨a, spent.get_authorization, spent.available.1⟩, ?_⟩
    refine spent.carried rfl rfl rfl (fun _ hkind => by cases hkind) ?_
    refine ⟨_, (inserted.2 _).trans (if_pos rfl), ?_, session, fingerprint⟩
    exact forIntent.trans spent.intentId

lemma Effect.jobs_noted (h : Effect s m s') :
    Evolves (fun _ _ => True) (fun j => m.map Creation.kind = some (.job j.jobId))
      s.jobs s'.jobs := by
  cases h
  case jobCreated inserted => exact inserted.evolves (fun _ => trivial) rfl
  case jobEnded jobChanged _ => exact jobChanged.evolves (fun _ => trivial) trivial
  all_goals exact evolves_refl fun _ => trivial

lemma Effect.operations_noted (h : Effect s m s') :
    Evolves (fun _ _ => True) (fun o => m.map Creation.kind = some (.operation o.operationId))
      s.operations s'.operations := by
  cases h
  case operationCreated inserted => exact inserted.evolves (fun _ => trivial) rfl
  case operationMoved changed => exact changed.evolves (fun _ => trivial) trivial
  all_goals exact evolves_refl fun _ => trivial

end Carried

/-- A database, and what was created from authorizations on the way to it, oldest first. -/
structure History where
  db : Db
  created : List Creation

def History.new (walletId : Uuid) (now : Time) : History := ⟨initializeWallet walletId now, []⟩

/-- One call, which notes what it creates. -/
def History.step (P : Platform) (h : History) (c : Call) : Except StorageError History := do
  let db ← WalletStorage.step P h.db c
  return ⟨db, h.created ++ (creation h.db c).toList⟩

/-- Every job, every operation and every nonce claim made under an authorization is noted. -/
structure History.Complete (h : History) : Prop where
  jobs : ∀ id j, h.db.jobs.get id = some j → ∃ c ∈ h.created, c.kind = .job id
  operations : ∀ id o, h.db.operations.get id = some o → ∃ c ∈ h.created, c.kind = .operation id
  claims : ∀ f n, h.db.nonceClaims.get f = some n → n.origin.isSome →
    ∃ c ∈ h.created, c.bindingDigest = f

/-- One authorization for an intent, one creation from an authorization, and every creation carries
what was approved. -/
structure History.SingleUse (h : History) : Prop where
  unique : Unique AuthorizationRow.intentId h.db.authorizations
  once : (h.created.map Creation.authorizationId).Nodup
  carried : ∀ c ∈ h.created, c.Carried h.db.authority
  complete : h.Complete

section History

variable {P : Platform} {h h' : History} {c : Call}

lemma History.step_eq_ok (hstep : h.step P c = .ok h') :
    Effect h.db.authority (creation h.db c) h'.db.authority ∧
      h'.created = h.created ++ (creation h.db c).toList := by
  simp only [History.step, ok_iff] at hstep
  obtain ⟨_, hdb, rfl⟩ := hstep
  exact ⟨(step_does hdb).effect, rfl⟩

lemma mem_created_of_map {β : Type} {f : Creation → β} {b : β} {l : List Creation}
    (hm : m.map f = some b) : ∃ c ∈ l ++ m.toList, f c = b := by
  obtain ⟨c, rfl, rfl⟩ := Option.map_eq_some_iff.mp hm
  exact ⟨c, by simp, rfl⟩

lemma History.Complete.step (hc : h.Complete) (hstep : h.step P c = .ok h') : h'.Complete := by
  obtain ⟨heff, hcrtd⟩ := History.step_eq_ok hstep
  have hold : ∀ {p : Creation → Prop}, (∃ c ∈ h.created, p c) → ∃ c ∈ h'.created, p c := by
    rintro _ ⟨c, hmem, hp⟩
    exact ⟨c, hcrtd ▸ mem_append_left _ hmem, hp⟩
  constructor
  · intro id j' hj'
    rcases heff.jobs_noted.origin id j' hj' with ⟨j, hj, -⟩ | ⟨-, hnew⟩
    · exact hold (hc.jobs id j hj)
    · rw [jobId_of_get hj'] at hnew
      rw [hcrtd]
      exact mem_created_of_map hnew
  · intro id o' ho'
    rcases heff.operations_noted.origin id o' ho' with ⟨o, ho, -⟩ | ⟨-, hnew⟩
    · exact hold (hc.operations id o ho)
    · rw [show o'.operationId = id from (get_eq_some_iff.mp ho').2] at hnew
      rw [hcrtd]
      exact mem_created_of_map hnew
  · intro f n' hn' horigin
    rcases heff.nonceClaims.origin f n' hn' with ⟨n, hn, _, rfl⟩ | ⟨-, hnew⟩
    · exact hold (hc.claims f n hn horigin)
    · have hfing := hnew horigin
      rw [show n'.fingerprint = f from key_of_get hn'] at hfing
      rw [hcrtd]
      exact mem_created_of_map hfing

/-- A creation is made from an authorization that was available, all earlier ones from consumed
ones. -/
theorem History.SingleUse.step (hs : h.SingleUse) (hstep : h.step P c = .ok h') : h'.SingleUse := by
  obtain ⟨heff, hcrtd⟩ := History.step_eq_ok hstep
  have hcarried : ∀ c ∈ h.created, c.Carried h'.db.authority :=
    fun c hmem => (hs.carried c hmem).step heff
  have hcompl := hs.complete.step hstep
  cases hm : creation h.db c with
  | none =>
    rw [hm, Option.toList_none, append_nil] at hcrtd
    exact ⟨heff.authorizations_unique hs.unique, hcrtd ▸ hs.once, hcrtd ▸ hcarried, hcompl⟩
  | some =>
    rw [hm] at heff hcrtd
    obtain ⟨⟨_, ha, havail⟩, hnew⟩ := heff.created
    refine ⟨heff.authorizations_unique hs.unique, ?_, ?_, hcompl⟩
    · rw [hcrtd, map_append, nodup_append_comm]
      refine nodup_cons.mpr ⟨fun hmem => ?_, hs.once⟩
      obtain ⟨d', hd', hsame⟩ := mem_map.mp hmem
      obtain ⟨_, ha', hcons, -⟩ := (hs.carried d' hd').authorization
      rw [hsame, ha] at ha'
      cases ha'
      simp [havail] at hcons
    · intro d' hd'
      rw [hcrtd] at hd'
      rcases mem_append.mp hd' with hold | hlast
      · exact hcarried d' hold
      · rw [mem_singleton.mp hlast]
        exact hnew

theorem History.singleUse_of_reaches {walletId : Uuid} {now : Time}
    (hh : Reaches (History.step P) (.new walletId now) h) : h.SingleUse := by
  refine hh.invariant ?_ fun _ _ _ hs hstep => hs.step hstep
  refine ⟨unique_empty, nodup_nil, by simp [History.new], ?_⟩
  constructor
  all_goals
    intros
    simp_all [History.new, initializeWallet]

/-- An authorization stays what it was: it is never removed, and never consumed again. -/
theorem History.authorization_keeps (hh : Reaches (History.step P) h h') {id : Uuid}
    (ha : h.db.authorizations.get id = some a) :
    ∃ a', h'.db.authorizations.get id = some a' ∧ a.Keeps a' := by
  refine hh.invariant (I := fun h' => ∃ a', h'.db.authorizations.get id = some a' ∧ a.Keeps a')
    ⟨a, ha, .refl a⟩ ?_
  rintro _ _ _ ⟨a₁, ha₁, hkeeps₁⟩ hstep
  obtain ⟨a₂, ha₂, hkeeps₂⟩ := (History.step_eq_ok hstep).1.authorizations.keeps id a₁ ha₁
  exact ⟨a₂, ha₂, hkeeps₁.trans hkeeps₂⟩

/-- One approval, one use: an intent has at most one authorization, from which at most one thing is
created, and that carries the intent, the session and the epoch of the authorization, a signing job
also its binding digest. -/
theorem authorization_singleUse {walletId : Uuid} {now : Time}
    (hh : Reaches (History.step P) (.new walletId now) h) :
    h.SingleUse ∧ ∀ h', Reaches (History.step P) h h' → ∀ id a,
      h.db.authorizations.get id = some a →
      ∃ a', h'.db.authorizations.get id = some a' ∧ a.Keeps a' :=
  ⟨History.singleUse_of_reaches hh, fun _ hh' _ _ ha => History.authorization_keeps hh' ha⟩

end History

def operationHistory : History :=
  run (History.step samplePlatform) (.new 7 0)
    (approvalCalls ++ [.createPersonalSigningOperation 3 sampleOperation 3])

/-- The operation is created from the authorization, but carries another binding digest. -/
theorem operation_digest_differs :
    operationHistory.created.map Creation.authorizationId = [3] ∧
      (operationHistory.db.operations.get 4).map (fun o => o.operationBindingDigest) =
        some (.replicate 5) ∧
      (operationHistory.db.authorizations.get 3).map AuthorizationRow.bindingDigest =
        some (.replicate 4) := by
  decide +kernel

theorem authorization_singleUse_operation : operationHistory.SingleUse :=
  (authorization_singleUse (reaches_run _ _)).1

end Catomicals.WalletStorage
