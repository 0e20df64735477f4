import NiffyInsure.Proposals

/-!
# The voting rules stay within their bounds

The length of a round and its quorum are set in three ways: by the admin, by a governance vote and
at initialization.  Each checks the value before it is stored, the governance vote when the
proposal is created and not when it is applied, and a claim copies the quorum of the day on which
it is filed or appealed.

* `RuleValid`: the bounds on an entry of the storage that holds a voting rule.
* `rulesValid_of_reach`: in every reachable state all entries are within their bounds.
* `State.RulesValid.duration`, `State.RulesValid.claims`, `State.RulesValid.appeals`: what the
  rounds read is then within its bounds, the defaults included.
-/

namespace NiffyInsure

open Machine

/-- A quorum that `validate_quorum_bps` accepts. -/
def ValidQuorum (bps : Nat) : Prop := QUORUM_BPS_MIN ≤ bps ∧ bps ≤ QUORUM_BPS_MAX

/-- A voting window that `validate_voting_duration_ledgers` accepts. -/
def ValidDuration (ledgers : Nat) : Prop :=
  MIN_VOTING_DURATION_LEDGERS ≤ ledgers ∧ ledgers ≤ MAX_VOTING_DURATION_LEDGERS

/-- The bounds on an entry that holds a voting rule, or puts one to the vote. -/
def RuleValid : (k : DataKey) → k.Val → Prop
  | .voteDurLedgers, (ledgers : Nat) => ValidDuration ledgers
  | .quorumBps, (bps : Nat) => ValidQuorum bps
  | .elevatedQuorumBps, (bps : Nat) => ValidQuorum bps
  | .claimQuorumBps _, (bps : Nat) => ValidQuorum bps
  | .appealClaimQuorumBps _, (bps : Nat) => ValidQuorum bps
  | .proposal _, (p : Proposal) => validateSupportedParameter p.paramKey p.proposedValue = .ok ()
  | _, _ => True

/-- The voting rules in storage are within their bounds. -/
def State.RulesValid (s : State) : Prop := ∀ k v, s.get k = some v → RuleValid k v

/-! ## What the rounds read -/

theorem ValidQuorum.max {a b : Nat} (ha : ValidQuorum a) (hb : ValidQuorum b) :
    ValidQuorum (max a b) := by
  unfold ValidQuorum at *
  omega

theorem validQuorum_default : ValidQuorum DEFAULT_QUORUM_BPS := by
  unfold ValidQuorum
  decide

theorem validQuorum_appeal : ValidQuorum APPEAL_ELEVATED_QUORUM_BPS := by
  unfold ValidQuorum
  decide

theorem validDuration_default : ValidDuration VOTE_WINDOW_LEDGERS := by
  unfold ValidDuration
  decide

theorem validateQuorumBps_eq_ok {bps : Nat} : validateQuorumBps bps = .ok () ↔ ValidQuorum bps := by
  rw [validateQuorumBps, ensure_eq_ok, ValidQuorum]

/-- A proposal that was accepted has a valid value for the parameter it names. -/
theorem validateSupportedParameter_eq_ok {key : Str} {value : Nat}
    (h : validateSupportedParameter key value = .ok ()) :
    (key = quorumBpsKey → ValidQuorum value) ∧
      (key = votingDurationLedgersKey → ValidDuration value) := by
  have hne : quorumBpsKey ≠ votingDurationLedgersKey := by decide
  unfold validateSupportedParameter at h
  split at h
  · rename_i hkey
    refine ⟨fun _ => validateQuorumBps_eq_ok.mp (mapErr_eq_ok.mp h), fun hkey' => ?_⟩
    exact absurd (hkey.symm.trans hkey') hne
  · rename_i hkey
    refine ⟨fun hkey' => absurd hkey' hkey, fun hkey' => ?_⟩
    rw [if_pos hkey', ensure_eq_ok] at h
    exact h

theorem getD_of_forall {α : Type} {o : Option α} {a : α} {P : α → Prop} (ha : P a)
    (ho : ∀ v, o = some v → P v) : P (o.getD a) := by
  cases o with
  | none => exact ha
  | some v => exact ho v rfl

namespace State.RulesValid

variable {s s' : State}

theorem duration (hs : s.RulesValid) : ValidDuration s.getVotingDurationLedgers :=
  getD_of_forall (P := ValidDuration) validDuration_default fun v hv => hs .voteDurLedgers v hv

theorem quorum (hs : s.RulesValid) : ValidQuorum s.getQuorumBps :=
  getD_of_forall (P := ValidQuorum) validQuorum_default fun v hv => hs .quorumBps v hv

theorem elevated (hs : s.RulesValid) : ValidQuorum s.getElevatedQuorumBps :=
  getD_of_forall (P := ValidQuorum) validQuorum_appeal fun v hv => hs .elevatedQuorumBps v hv

theorem claims (hs : s.RulesValid) (id : Nat) : ValidQuorum (s.getClaimQuorumBps id) :=
  getD_of_forall (P := ValidQuorum) validQuorum_default fun v hv => hs (.claimQuorumBps id) v hv

theorem appeals (hs : s.RulesValid) (id : Nat) : ValidQuorum (s.getAppealClaimQuorumBps id) :=
  getD_of_forall (P := ValidQuorum) validQuorum_appeal
    fun v hv => hs (.appealClaimQuorumBps id) v hv

/-- The quorum of a round, raised by a fraud score or not. -/
theorem effective (hs : s.RulesValid) (id : Nat) : ValidQuorum (s.effectiveQuorumBps id) := by
  unfold State.effectiveQuorumBps
  dsimp only
  split
  · split
    · exact hs.elevated.max (hs.claims id)
    · exact hs.claims id
  · exact hs.claims id

/-! ## Writing a rule -/

theorem set (hs : s.RulesValid) {k : DataKey} {v : k.Val} (hv : RuleValid k v) :
    (s.set k v).RulesValid := by
  intro k' v' hget
  by_cases hk : k' = k
  · subst hk
    rw [State.get_set_self, Option.some.injEq] at hget
    rw [← hget]
    exact hv
  · rw [State.get_set_of_ne _ _ hk] at hget
    exact hs k' v' hget

theorem remove (hs : s.RulesValid) (k : DataKey) : (s.remove k).RulesValid := by
  intro k' v' hget
  by_cases hk : k' = k
  · subst hk
    rw [State.get_remove_self] at hget
    cases hget
  · rw [State.get_remove_of_ne _ hk] at hget
    exact hs k' v' hget

/-- A step that leaves the rules, the quorums of the claims and the proposals alone. -/
theorem of_same (hs : s.RulesValid) (hrules : SameKind .votingRules s s')
    (hclaims : SameKind .claimQuorum s s') (hgov : SameKind .governance s s') : s'.RulesValid := by
  intro k v hget
  cases k with
  | voteDurLedgers | quorumBps | elevatedQuorumBps =>
    rw [hrules _ rfl] at hget
    exact hs _ v hget
  | claimQuorumBps | appealClaimQuorumBps =>
    rw [hclaims _ rfl] at hget
    exact hs _ v hget
  | proposal =>
    rw [hgov _ rfl] at hget
    exact hs _ v hget
  | _ => trivial

end State.RulesValid

/-! ## The calls that write a rule -/

section Calls

variable {env : Env} {s s' : State} {claimId : Nat}

theorem claimQuorum_of_fileClaim {holder : Address} {policyId : Nat} {amount : Int} {details : Str}
    {evidence : List ClaimEvidenceEntry} {expectedNonce : Option Nat}
    (h : fileClaim env s holder policyId amount details evidence expectedNonce =
      .ok (claimId, s')) :
    SameKind .claimQuorum (s.set (.claimQuorumBps claimId) s.getQuorumBps) s' := by
  obtain ⟨s₁, claim, hf, rfl, rfl, -⟩ := fileClaim_records h
  have hquorum :
      ((s₁.setClaim claim).setOpenClaim claim.claimant claim.policyId true).getQuorumBps =
        s.getQuorumBps := by
    simp [State.getQuorumBps, hf.get .quorumBps rfl]
  simp only [State.recordNewClaim, SameKind.emit_iff, hquorum]
  rw [SameKind.setIfSome_iff rfl, SameKind.set_iff rfl]
  refine SameKind.set ?_ _ _
  rw [SameKind.set_iff rfl, SameKind.set_iff rfl]
  exact hf.sameKind rfl

/-- An appeal takes the elevated quorum of the day, and three quarters at least. -/
theorem claimQuorum_of_openAppeal {claimant : Address}
    (h : openAppeal s claimant claimId = .ok s') :
    SameKind .claimQuorum (s.set (.appealClaimQuorumBps claimId)
      (max s.getElevatedQuorumBps APPEAL_ELEVATED_QUORUM_BPS)) s' := by
  simp only [openAppeal, bind_eq_ok, pure_eq_ok] at h
  obtain ⟨deadline, -, -, -, claim, -, -, -, -, -, -, -, -, -, rfl⟩ := h
  rw [SameKind.emit_iff, SameKind.emit_iff, SameKind.set_iff rfl, SameKind.set_iff rfl,
    State.snapshotAppealVoters, SameKind.set_iff rfl]
  exact .refl _ _

/-- Filing and opening an appeal copy a valid quorum. -/
theorem rulesValid_of_claimCall {c : ClaimCall} (h : c.exec env s = .ok s') (hs : s.RulesValid) :
    s'.RulesValid := by
  have hf := frame_claimCall h
  have hran := ran_of_exec h
  cases c with
  | fileClaim =>
    obtain ⟨id, hran⟩ := hran
    refine State.RulesValid.of_same (hs.set (k := .claimQuorumBps id) hs.quorum) ?_
      (claimQuorum_of_fileClaim hran) ?_
    · exact ((SameKind.set_iff rfl _).mpr (.refl _ s)).symm.trans (hf.sameKind rfl)
    · exact ((SameKind.set_iff rfl _).mpr (.refl _ s)).symm.trans (hf.sameKind rfl)
  | openAppeal claimant id =>
    refine State.RulesValid.of_same (hs.set (k := .appealClaimQuorumBps id)
      (hs.elevated.max validQuorum_appeal)) ?_ (claimQuorum_of_openAppeal hran) ?_
    · exact ((SameKind.set_iff rfl _).mpr (.refl _ s)).symm.trans (hf.sameKind rfl)
    · exact ((SameKind.set_iff rfl _).mpr (.refl _ s)).symm.trans (hf.sameKind rfl)
  | _ => exact hs.of_same (hf.sameKind rfl) (hf.sameKind rfl) (hf.sameKind rfl)

/-- A proposal is stored with the value that was checked, and applied with that value. -/
theorem rulesValid_of_closeVote {p : Proposal}
    (hp : validateSupportedParameter p.paramKey p.proposedValue = .ok ()) (hs : s.RulesValid) :
    (s.closeVote p).RulesValid := by
  have hvalid := validateSupportedParameter_eq_ok hp
  unfold State.closeVote
  dsimp only
  split
  · refine State.RulesValid.set ?_ hp
    unfold State.applyParameter
    split
    · rename_i hkey
      exact hs.set (k := .quorumBps) (hvalid.1 hkey)
    · split
      · rename_i hkey
        exact hs.set (k := .voteDurLedgers) (hvalid.2 hkey)
      · exact hs
  · split
    · exact State.RulesValid.remove hs _
    · exact hs.set (k := .proposal p.proposalId) hp

theorem rulesValid_of_governanceCall {c : GovernanceCall} (h : c.exec env s = .ok s')
    (hs : s.RulesValid) : s'.RulesValid := by
  have hf := frame_governanceCall h
  cases c with
  | createProposal creator key value =>
    obtain ⟨id, h⟩ := dropValue_eq_ok.mp h
    simp only [createProposal, bind_eq_ok, pure_eq_ok, Prod.mk.injEq] at h
    obtain ⟨-, -, u, hvalid, -, -, deadline, -, -, rfl⟩ := h
    refine State.RulesValid.set (k := .proposal _) ?_ hvalid
    exact (hs.set (k := .lastProposalLedger creator) trivial).set (k := .proposalCounter) trivial
  | voteProposal voter id approve =>
    simp only [GovernanceCall.exec, voteProposal, bind_eq_ok, okOr_eq_ok, pure_eq_ok] at h
    obtain ⟨-, -, p, hp, -, -, -, -, rfl⟩ := h
    refine rulesValid_of_closeVote ?_ (hs.set (k := .proposalVote id voter) trivial)
    have hold : validateSupportedParameter p.paramKey p.proposedValue = .ok () :=
      hs (.proposal id) p hp
    unfold Proposal.count
    split <;> exact hold
  | finalizeGovernanceProposal id =>
    simp only [GovernanceCall.exec, finalizeGovernanceProposal, bind_eq_ok, pure_eq_ok] at h
    obtain ⟨p, -, -, -, -, -, rfl⟩ := h
    exact State.RulesValid.remove hs _
  | adminSetProposerCooldown n =>
    exact hs.of_same (hf.sameKind rfl) (hf.sameKind rfl) (hf.sameKind rfl)

theorem rulesValid_of_configure {auth : Result Address} {pre check : Result Unit} {cooldown : Bool}
    {k : DataKey} {v : k.Val}
    (h : s.configure auth pre cooldown check [⟨k, some v⟩] = .ok s')
    (hv : check = .ok () → RuleValid k v) (hs : s.RulesValid) : s'.RulesValid := by
  obtain ⟨s₁, hf, hcheck, rfl⟩ := configure_eq_ok h
  exact State.RulesValid.set (hs.of_same (hf.sameKind rfl) (hf.sameKind rfl) (hf.sameKind rfl))
    (hv hcheck)

theorem rulesValid_of_setting {c : Setting} (h : c.exec env s = .ok s') (hs : s.RulesValid) :
    s'.RulesValid := by
  have hf := frame_settingOf h
  cases c with
  | initializeContract admin token =>
    simp only [Setting.exec, initializeContract, bind_eq_ok, pure_eq_ok] at h
    obtain ⟨-, -, -, -, -, -, -, -, rfl⟩ := h
    refine State.RulesValid.set (k := .quorumBps) ?_ validQuorum_default
    refine State.RulesValid.set (k := .voteDurLedgers) ?_ validDuration_default
    refine hs.of_same ?_ ?_ ?_ <;> simp
  | adminSetVoteDurationLedgers ledgers =>
    refine rulesValid_of_configure h (fun hcheck => ?_) hs
    rw [ensure_eq_ok] at hcheck
    exact hcheck
  | adminSetQuorumBps bps =>
    exact rulesValid_of_configure h (fun hcheck => validateQuorumBps_eq_ok.mp hcheck) hs
  | adminSetElevatedQuorumBps bps =>
    exact rulesValid_of_configure h (fun hcheck => validateQuorumBps_eq_ok.mp hcheck) hs
  | adminSetFraudScoreThreshold threshold => exact rulesValid_of_configure h (fun _ => trivial) hs
  | _ => exact hs.of_same (hf.sameKind rfl) (hf.sameKind rfl) (hf.sameKind rfl)

end Calls

theorem rulesValid_of_step {host : Host} {s s' : State} {l : Label}
    (hstep : (contract host).step s l s') (hs : s.RulesValid) : s'.RulesValid := by
  cases l with
  | closeLedger n =>
    obtain ⟨-, -, rfl⟩ := hstep
    exact hs
  | tokens b a =>
    obtain ⟨-, rfl⟩ := hstep
    exact hs
  | call env c =>
    obtain ⟨-, h⟩ := hstep
    have hf := frame_exec h
    cases c with
    | claim c => exact rulesValid_of_claimCall h hs
    | governance c => exact rulesValid_of_governanceCall h hs
    | setting c => exact rulesValid_of_setting h hs
    | policy c =>
      exact hs.of_same (hf.sameKind (c.untouched rfl)) (hf.sameKind (c.untouched rfl))
        (hf.sameKind (c.untouched rfl))
    | treasury c =>
      exact hs.of_same (hf.sameKind (c.untouched rfl)) (hf.sameKind (c.untouched rfl))
        (hf.sameKind (c.untouched rfl))

/-- **Every reachable state has valid rules.** -/
theorem rulesValid_of_reach {host : Host} {s : State} (h : (contract host).Reach always s) :
    s.RulesValid := by
  refine h.invariant (I := State.RulesValid) ?_ fun s l s' _ hstep hs => rulesValid_of_step hstep hs
  intro s hs k v hget
  rw [State.Fresh.get host hs] at hget
  cases hget

end NiffyInsure
