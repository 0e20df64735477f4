import NiffyInsure.Lib.Census
import NiffyInsure.PolicyStep
import NiffyInsure.Registry
import NiffyInsure.Trace

/-!
# Active policies and the electorate

A holder is a voter while it has an active policy.  Every function that activates or deactivates
a policy writes three things one after the other: the record, the holder's counter of active
policies, and the registry, which the holder leaves when the counter reaches zero.

* `State.activePolicies` counts the stored active policies of each holder.
* `State.Enrolls n`: the counters say `n`, and the voters are the holders that count.
* `electorateExact_of_step`: one step keeps `s.Enrolls s.activePolicies`, unless a transfer stores
  its record over an active policy of the recipient.
* `electorate_of_reach`: the same over every run without such a transfer and without edits of the
  voter list by the administrator.
-/

namespace NiffyInsure

open Machine KeyedStore

/-! ## Counting the active policies -/

/-- The holder of an entry that is an active policy. -/
def activeHolder : (k : DataKey) → k.Val → Option Address
  | .policy holder _, p => if p.isActive = true then some holder else none
  | _, _ => none

/-- The number of stored policies of each holder that are active. -/
def State.activePolicies (s : State) : Address → Nat := census activeHolder s.storage

theorem activeHolder_eq_none (k : DataKey) (v : k.Val) (hk : ¬ k.kind = .policy) :
    activeHolder k v = none := by
  unfold activeHolder
  split
  · exact absurd rfl hk
  · rfl

section Counting

variable {s s' : State} {holder : Address} {policyId : Nat} {p p' : Policy}

theorem activeHolder_policy (holder : Address) (policyId : Nat) (p : Policy) :
    activeHolder (.policy holder policyId) p = if p.isActive = true then some holder else none :=
  rfl

theorem activePolicies_of_same (h : SameKind .policy s s') : s'.activePolicies = s.activePolicies :=
  AgreeOn.census_eq (P := fun k => k.kind = .policy) (fun k hk => h k hk) activeHolder_eq_none

theorem activePolicies_of_edit (hget : s.getPolicy holder policyId = some p)
    (hactive : p'.isActive = p.isActive) :
    (s.setPolicy holder policyId p').activePolicies = s.activePolicies := by
  refine census_insert_keep ?_
  have hlook : s.storage.lookup (.policy holder policyId) = some p := hget
  rw [hlook, Option.bind_some, activeHolder_policy, activeHolder_policy, hactive]

theorem activePolicies_of_activation
    (hold : ∀ q, s.getPolicy holder policyId = some q → q.isActive = false)
    (hactive : p.isActive = true) :
    (s.setPolicy holder policyId p).activePolicies = enter s.activePolicies holder := by
  refine census_insert_enter ?_ ?_
  · cases hlook : s.storage.lookup (.policy holder policyId) with
    | none => rfl
    | some q =>
      rw [Option.bind_some, activeHolder_policy, if_neg]
      rw [hold q hlook]
      simp
  · rw [activeHolder_policy, if_pos hactive]

theorem bind_activeHolder (hget : s.getPolicy holder policyId = some p)
    (hactive : p.isActive = true) :
    (s.storage.lookup (.policy holder policyId)).bind (activeHolder (.policy holder policyId)) =
      some holder := by
  have hlook : s.storage.lookup (.policy holder policyId) = some p := hget
  rw [hlook, Option.bind_some, activeHolder_policy, if_pos hactive]

theorem activePolicies_of_deactivation (hget : s.getPolicy holder policyId = some p)
    (hactive : p.isActive = true) (hended : p'.isActive = false) :
    (s.setPolicy holder policyId p').activePolicies = leave s.activePolicies holder := by
  refine census_insert_leave (bind_activeHolder hget hactive) ?_
  rw [activeHolder_policy, if_neg (by rw [hended]; simp)]

theorem activePolicies_of_removal (hget : s.getPolicy holder policyId = some p)
    (hactive : p.isActive = true) :
    (s.removePolicy holder policyId).activePolicies = leave s.activePolicies holder :=
  census_erase (bind_activeHolder hget hactive)

end Counting

/-! ## The counters and the registry -/

/-- The counters of active policies say `n`, and the voters are the holders that count. -/
structure State.Enrolls (s : State) (n : Address → Nat) : Prop where
  sound : s.RegistrySound
  enrolled : Enrolled n s.getActivePolicyCount (· ∈ s.getVoters)

/-- Neither the counters nor the registry is written. -/
structure SameRoll (s s' : State) : Prop where
  registry : SameKind .registry s s'
  count : SameKind .activeCount s s'

section Roll

variable {s s' : State} {holder : Address} {n : Address → Nat}

theorem getActivePolicyCount_of_same (h : SameKind .activeCount s s') :
    s'.getActivePolicyCount = s.getActivePolicyCount := by
  funext a
  simp only [State.getActivePolicyCount, h (.activePolicyCount a) rfl]

theorem getActivePolicyCount_set (s : State) (holder : Address) (c : Nat) :
    (s.set (.activePolicyCount holder) c).getActivePolicyCount =
      Function.update s.getActivePolicyCount holder c := by
  funext a
  by_cases ha : a = holder
  · subst ha
    simp [State.getActivePolicyCount]
  · rw [Function.update_of_ne ha]
    simp [State.getActivePolicyCount, ha]

theorem SameRoll.of_frame {ks : List Kind} (h : Frame ks s s')
    (hregistry : ks.contains .registry = false) (hcount : ks.contains .activeCount = false) :
    SameRoll s s' :=
  ⟨h.sameKind hregistry, h.sameKind hcount⟩

theorem State.Enrolls.of_same (h : SameRoll s s') (hs : s.Enrolls n) : s'.Enrolls n := by
  refine ⟨registrySound_of_same h.registry hs.sound, ?_⟩
  rw [getActivePolicyCount_of_same h.count, getVoters_of_same h.registry]
  exact hs.enrolled

theorem frame_votersEnsureHolder (h : s.votersEnsureHolder holder = .ok s') :
    Frame [.registry] s s' := by
  dsimp only [State.votersEnsureHolder] at h
  split at h
  · cases h
    exact .refl _ s
  · split at h
    · cases h
    · cases h
      exact frame_appendVoterUnchecked s holder

/-- **`add_voter` counts one policy more** and enters its holder. -/
theorem State.Enrolls.addVoter (h : s.addVoter holder = .ok s') (hs : s.Enrolls n) :
    s'.Enrolls (enter n holder) := by
  obtain ⟨hsound, hmem⟩ := addVoter_exact hs.sound h
  refine ⟨hsound, hs.enrolled.enter ?_ hmem⟩
  obtain ⟨s₁, h₁, rfl⟩ := addVoter_eq_ok h
  rw [getActivePolicyCount_set,
    getActivePolicyCount_of_same ((frame_votersEnsureHolder h₁).sameKind rfl)]
  rfl

/-- **A deactivation counts one policy less** and takes out the holder of the last one. -/
theorem State.Enrolls.dropActivePolicy (h : s.dropActivePolicy holder = .ok s')
    (hs : s.Enrolls n) : s'.Enrolls (leave n holder) := by
  have hroll : SameKind .registry s (s.decrementHolderActivePolicies holder) :=
    .of_set_ne (by simp) _
  have hsound := registrySound_of_same hroll hs.sound
  have hvoters := getVoters_of_same hroll
  have hcount : (s.decrementHolderActivePolicies holder).getActivePolicyCount =
      leave s.getActivePolicyCount holder := getActivePolicyCount_set _ _ _
  dsimp only [State.dropActivePolicy] at h
  split at h
  · rename_i hzero
    -- the last policy: removing never traps in a sound registry, so this is the state reached
    obtain ⟨t, ht, hsound', hmem⟩ := removeVoter_exact hsound holder
    rw [ht] at h
    cases h
    have hsame := getActivePolicyCount_of_same ((frame_removeVoter ht).sameKind rfl)
    refine ⟨hsound', hs.enrolled.leave (hsame.trans hcount) (fun _ d => ?_) fun hne => ?_⟩
    · rw [hmem, hvoters]
    · rw [hsame] at hne
      exact absurd hzero hne
  · rename_i hpos
    cases h
    refine ⟨hsound, hs.enrolled.leave hcount (fun hzero => absurd hzero hpos) fun _ d => ?_⟩
    rw [hvoters]

end Roll

/-! ## The calls -/

/-- The counters and the registry agree with the stored policies. -/
def State.ElectorateExact (s : State) : Prop := s.Enrolls s.activePolicies

section Calls

variable {env : Env} {s s' t u : State} {holder : Address} {policyId claimId : Nat} {p p' : Policy}

theorem State.ElectorateExact.of_same (hs : s.ElectorateExact) (hpolicy : SameKind .policy s s')
    (hroll : SameRoll s s') : s'.ElectorateExact := by
  unfold State.ElectorateExact
  rw [activePolicies_of_same hpolicy]
  exact State.Enrolls.of_same hroll hs

theorem State.ElectorateExact.of_frame {ks : List Kind} (hs : s.ElectorateExact) (h : Frame ks s s')
    (hpolicy : ks.contains .policy = false) (hregistry : ks.contains .registry = false)
    (hcount : ks.contains .activeCount = false) : s'.ElectorateExact :=
  hs.of_same (h.sameKind hpolicy) (.of_frame h hregistry hcount)

/-- A record is edited that stays as active as it was. -/
theorem State.ElectorateExact.edit (hs : s.ElectorateExact)
    (hget : s.getPolicy holder policyId = some p)
    (hrec : SameKind .policy (s.setPolicy holder policyId p') s')
    (hactive : p'.isActive = p.isActive) (hroll : SameRoll s s') : s'.ElectorateExact := by
  unfold State.ElectorateExact
  rw [activePolicies_of_same hrec, activePolicies_of_edit hget hactive]
  exact State.Enrolls.of_same hroll hs

/-- A policy is stored where no active one was, and its holder entered. -/
theorem State.ElectorateExact.activate (hs : s.ElectorateExact)
    (hold : ∀ q, s.getPolicy holder policyId = some q → q.isActive = false)
    (hactive : p.isActive = true) (hrec : SameKind .policy (s.setPolicy holder policyId p) t)
    (hroll : SameRoll s t) (hadd : t.addVoter holder = .ok u) : u.ElectorateExact := by
  unfold State.ElectorateExact
  rw [activePolicies_of_same ((frame_addVoter hadd).sameKind rfl), activePolicies_of_same hrec,
    activePolicies_of_activation hold hactive]
  exact State.Enrolls.addVoter hadd (State.Enrolls.of_same hroll hs)

/-- An active policy is ended, and taken off its holder's count. -/
theorem State.ElectorateExact.deactivate (hs : s.ElectorateExact)
    (hget : s.getPolicy holder policyId = some p) (hactive : p.isActive = true)
    (hended : p'.isActive = false) (hrec : SameKind .policy (s.setPolicy holder policyId p') t)
    (hroll : SameRoll s t) (hdrop : t.dropActivePolicy holder = .ok u) : u.ElectorateExact := by
  unfold State.ElectorateExact
  rw [activePolicies_of_same ((frame_dropActivePolicy hdrop).sameKind rfl),
    activePolicies_of_same hrec, activePolicies_of_deactivation hget hactive hended]
  exact State.Enrolls.dropActivePolicy hdrop (State.Enrolls.of_same hroll hs)

theorem electorateExact_of_onReject {claim : Claim} (h : onReject s claim = .ok s')
    (hs : s.ElectorateExact) : s'.ElectorateExact := by
  obtain ⟨-, hf⟩ | ⟨p, t, hp, hf, hcases⟩ := onReject_cases h
  · exact hs.of_frame hf rfl rfl rfl
  · have ht := hs.of_frame hf rfl rfl rfl
    have hget : t.getPolicy claim.claimant claim.policyId = some p := by
      rw [← hp]
      exact hf.get (.policy _ _) rfl
    have hroll : ∀ q, SameRoll t (t.setPolicy claim.claimant claim.policyId q) := by
      intro q
      exact ⟨.of_set_ne (by simp) _, .of_set_ne (by simp) _⟩
    obtain ⟨hactive, hstruck, u, hdrop, hemit⟩ | ⟨hactive, rfl⟩ := hcases
    · have hu := ht.deactivate hget hactive hstruck (.refl _ _) (hroll _) hdrop
      exact hu.of_frame hemit rfl rfl rfl
    · exact ht.edit hget (.refl _ _) hactive (hroll _)

theorem electorateExact_of_closeRound {before : ClaimStatus} {claim : Claim}
    (h : closeRound s claimId before claim = .ok s') (hs : s.ElectorateExact) :
    s'.ElectorateExact := by
  have hrec := hs.of_frame (frame_recordDecision s claimId before claim) rfl rfl rfl
  obtain ⟨-, h⟩ | ⟨-, rfl⟩ := closeRound_cases h
  · exact electorateExact_of_onReject h hrec
  · exact hrec

theorem electorateExact_of_claimCall {c : ClaimCall} (h : c.exec env s = .ok s')
    (hs : s.ElectorateExact) : s'.ElectorateExact := by
  refine claimCall_keeps_of_closeRound ?_ electorateExact_of_closeRound h hs
  intro ks s s' hf hpolicy hregistry hcount hs
  exact hs.of_frame hf hpolicy hregistry hcount

theorem electorateExact_of_initiatePolicy {a : InitiatePolicyArgs} {policy : Policy}
    (h : initiatePolicy env s a = .ok (policy, s')) (hs : s.ElectorateExact) :
    s'.ElectorateExact := by
  obtain ⟨premium, deductible, decimals, treasuryAmount, feeAmount, feeRecipient, s₃, s₄, s₅, -,
    rfl, hf₃, -, hnone, -, h₄, h₅, hf, -⟩ := initiatePolicy_eq_ok h
  obtain ⟨s₆, s₇, h₆, -, h₇, rfl⟩ := bindPolicy_eq_ok h₅
  have hf₄ := frame_collectPremiumWithFee h₄
  have hf₆ := frame_reserveCoverage h₆
  have hs₆ := ((hs.of_frame hf₃ rfl rfl rfl).of_frame hf₄ rfl rfl rfl).of_frame hf₆ rfl rfl rfl
  have hs₇ : s₇.ElectorateExact := by
    refine State.ElectorateExact.activate (hs₆.of_same (.of_set_ne (by simp) _)
      ⟨.of_set_ne (by simp) _, .of_set_ne (by simp) _⟩) ?_ rfl (.refl _ _)
      ⟨.of_set_ne (by simp) _, .of_set_ne (by simp) _⟩ h₇
    intro q hq
    have hsame : SameKind .policy s s₆ :=
      (hf₃.sameKind rfl).trans ((hf₄.sameKind rfl).trans (hf₆.sameKind rfl))
    rw [State.getPolicy, State.get_set_of_ne _ _ (by simp), hsame _ rfl] at hq
    have hsome := hnone.symm.trans hq
    cases hsome
  exact (hs₇.of_frame (frame_indexPolicyByStatus _ _ _) rfl rfl rfl).of_frame hf rfl rfl rfl

theorem electorateExact_of_terminateInner {reason : TerminationReason} {byAdmin bypass : Bool}
    (h : terminateInner env s holder policyId reason byAdmin bypass = .ok s')
    (hs : s.ElectorateExact) : s'.ElectorateExact := by
  obtain ⟨policy, s₁, s₂, s₄, hget, -, hactive, hrec, hf₁, hdrop, hpay, hf, -⟩ :=
    terminateInner_eq_ok h
  have hs₂ := hs.deactivate hget hactive rfl hrec (.of_frame hf₁ rfl rfl) hdrop
  exact (hs₂.of_frame (frame_of_refund hpay) rfl rfl rfl).of_frame hf rfl rfl rfl

theorem electorateExact_of_processExpiredOne {b : Bool}
    (h : processExpiredOne s holder policyId = .ok (b, s')) (hs : s.ElectorateExact) :
    s'.ElectorateExact := by
  obtain hf | ⟨policy, hget, hactive, -, hrec, t, hf, hdrop⟩ := processExpiredOne_eq_ok h
  · exact hs.of_frame hf rfl rfl rfl
  · have hback : SameKind .policy s' t := ((frame_dropActivePolicy hdrop).sameKind rfl).symm
    exact hs.deactivate hget hactive rfl (hrec.trans hback) (.of_frame hf rfl rfl) hdrop

/-- A transfer to a place that holds no active policy. -/
theorem electorateExact_of_transferPolicy {newHolder : Address}
    (h : transferPolicy env s holder policyId newHolder = .ok s')
    (hfree : ∀ q, s.getPolicy newHolder policyId = some q → q.isActive = false)
    (hs : s.ElectorateExact) : s'.ElectorateExact := by
  obtain ⟨policy, s₁, s₂, hget, hactive, hne, hdrop, hadd, rfl⟩ := transferPolicy_eq_ok h
  have hkeep : SameKind .policy (s.moveRecord holder policyId newHolder policy) s₂ :=
    ((frame_dropActivePolicy hdrop).sameKind rfl).trans ((frame_addVoter hadd).sameKind rfl)
  have hcensus : s₂.activePolicies = enter (leave s.activePolicies holder) newHolder := by
    have hstay : (s.setPolicy newHolder policyId (policy.movedTo newHolder)).getPolicy holder
        policyId = some policy := by
      rw [← hget]
      exact State.get_set_of_ne _ _ (by simpa using hne)
    have hmoved : (policy.movedTo newHolder).isActive = true := hactive
    -- the record is written before the old place is cleared, the registry is written the other way
    rw [activePolicies_of_same hkeep, activePolicies_of_same (policy_moveRecord newHolder policy),
      activePolicies_of_removal hstay hactive, activePolicies_of_activation hfree hmoved,
      leave_enter_comm _ hne]
  have hmove : SameRoll s (s.moveRecord holder policyId newHolder policy) :=
    .of_frame (frame_moveRecord newHolder policy) rfl rfl
  have hs₂ : s₂.ElectorateExact := by
    unfold State.ElectorateExact
    rw [hcensus]
    have hmoved := State.Enrolls.of_same hmove hs
    exact State.Enrolls.addVoter hadd (State.Enrolls.dropActivePolicy hdrop hmoved)
  exact hs₂.of_same (.refl _ s₂) ⟨.refl _ s₂, .refl _ s₂⟩

end Calls

/-! ## Every run -/

/-- The administrator does not edit the voter list. -/
def NoVoterEdits (_ : State) : Label → Prop
  | .call _ (.setting (.addVotersBatch _)) => False
  | .call _ (.setting (.adminRemoveVoter _)) => False
  | _ => True

/-- A transferred record is not stored over an active policy of the recipient. -/
def TransfersApart (s : State) : Label → Prop
  | .call _ (.policy (.transferPolicy _ policyId newHolder)) =>
    ∀ q, s.getPolicy newHolder policyId = some q → q.isActive = false
  | _ => True

/-- No voter is entered or removed but with a policy, and no policy is lost to a transfer. -/
def KeepsElectorate (s : State) (l : Label) : Prop := NoVoterEdits s l ∧ TransfersApart s l

section Runs

variable {host : Host} {env : Env} {s s' : State}

theorem electorateExact_of_policyCall {c : PolicyCall} (h : c.exec env s = .ok s')
    (hok : TransfersApart s (.call env (.policy c))) (hs : s.ElectorateExact) :
    s'.ElectorateExact := by
  have hf := frame_policyCall h
  have hran := policyRan_of_exec h
  cases c with
  | initiatePolicy =>
    obtain ⟨policy, hran⟩ := hran
    exact electorateExact_of_initiatePolicy hran hs
  | setBeneficiary =>
    obtain ⟨policy, hget, rfl | hrec⟩ := setBeneficiary_eq_ok hran
    · exact hs
    · exact hs.edit hget hrec rfl (.of_frame hf rfl rfl)
  | adminUpdatePolicyMetadataUri =>
    obtain ⟨policy, hget, rfl | hrec⟩ := updatePolicyMetadataUri_eq_ok hran
    · exact hs
    · exact hs.edit hget hrec rfl (.of_frame hf rfl rfl)
  | renewPolicy =>
    obtain ⟨o, hran⟩ := hran
    obtain hmark | ⟨policy, premium, s₁, s₂, -, hget, -, -, -, -, -, -, hrec, -⟩ :=
      renewPolicy_eq_ok hran
    · exact hs.of_frame hmark rfl rfl rfl
    · exact hs.edit hget hrec rfl (.of_frame hf rfl rfl)
  | transferPolicy => exact electorateExact_of_transferPolicy hran hok hs
  | terminatePolicy => exact electorateExact_of_terminateInner hran.2 hs
  | adminTerminatePolicy => exact electorateExact_of_terminateInner hran hs
  | processExpired =>
    obtain ⟨n, hran⟩ := hran
    refine processExpiredLoop_keeps ?_ _ s 0 hran hs
    intro s₁ s₂ id b h₁ hs₁
    exact electorateExact_of_processExpiredOne h₁ hs₁

theorem electorateExact_of_setting {c : Setting} (h : c.exec env s = .ok s')
    (hok : NoVoterEdits s (.call env (.setting c))) (hs : s.ElectorateExact) :
    s'.ElectorateExact := by
  cases c with
  | addVotersBatch => exact absurd hok id
  | adminRemoveVoter => exact absurd hok id
  | _ => exact hs.of_frame (frame_settingOf h) rfl rfl rfl

/-- **One step keeps the electorate exact**, if no active policy is replaced by a transfer and the
voter list is not edited. -/
theorem electorateExact_of_step {l : Label} (hok : KeepsElectorate s l)
    (hstep : (contract host).step s l s') (hs : s.ElectorateExact) : s'.ElectorateExact := by
  cases l with
  | closeLedger n =>
    obtain ⟨-, -, rfl⟩ := hstep
    exact State.ElectorateExact.of_same (s := s) hs (fun _ _ => rfl)
      ⟨fun _ _ => rfl, fun _ _ => rfl⟩
  | tokens b a =>
    obtain ⟨-, rfl⟩ := hstep
    exact State.ElectorateExact.of_same (s := s) hs (fun _ _ => rfl)
      ⟨fun _ _ => rfl, fun _ _ => rfl⟩
  | call env c =>
    have hrun := hstep.2
    cases c with
    | claim c => exact electorateExact_of_claimCall hrun hs
    | policy c => exact electorateExact_of_policyCall hrun hok.2 hs
    | treasury c =>
      exact hs.of_frame (frame_treasuryCall hrun) (c.untouched rfl) (c.untouched rfl)
        (c.untouched rfl)
    | setting c => exact electorateExact_of_setting hrun hok.1 hs
    | governance c =>
      exact hs.of_frame (frame_governanceCall hrun) (c.untouched rfl) (c.untouched rfl)
        (c.untouched rfl)

theorem electorateExact_of_fresh (hs : s.Fresh host) : s.ElectorateExact := by
  refine ⟨registrySound_of_reach (.of_init hs), fun a => ?_⟩
  have hnone := State.Fresh.get host hs
  have hzero : s.activePolicies a = 0 := by
    rw [State.activePolicies, hs.storage, census_empty]
  rw [hzero]
  refine ⟨by simp [State.getActivePolicyCount, hnone], ?_⟩
  simp [State.getVoters, State.getVoterBucketCount, hnone]

theorem electorateExact_of_reach (h : (contract host).Reach KeepsElectorate s) :
    s.ElectorateExact := by
  refine h.invariant (fun s hs => electorateExact_of_fresh hs) ?_
  intro s l s' hok hstep hs
  exact electorateExact_of_step hok hstep hs

/-- **The counter of a holder is the number of its stored active policies, and the voters are the
holders that have one**, in every run in which no transfer stores its record over an active policy
of the recipient and the administrator does not edit the voter list. -/
theorem electorate_of_reach (h : (contract host).Reach KeepsElectorate s) (holder : Address) :
    s.getActivePolicyCount holder = s.activePolicies holder ∧
      (holder ∈ s.getVoters ↔ 0 < s.activePolicies holder) :=
  (electorateExact_of_reach h).enrolled holder

end Runs

/-- `NoVoterEdits`, computed. -/
def noVoterEditsCheck : Label → Bool
  | .call _ (.setting (.addVotersBatch _)) => false
  | .call _ (.setting (.adminRemoveVoter _)) => false
  | _ => true

/-- `TransfersApart`, computed. -/
def transfersApartCheck (s : State) : Label → Bool
  | .call _ (.policy (.transferPolicy _ policyId newHolder)) =>
    (s.getPolicy newHolder policyId).all fun q => !q.isActive
  | _ => true

theorem noVoterEdits_of_check (s : State) (l : Label) (h : noVoterEditsCheck l = true) :
    NoVoterEdits s l := by
  unfold noVoterEditsCheck at h
  unfold NoVoterEdits
  split at h
  · cases h
  · cases h
  · trivial

theorem transfersApart_of_check (s : State) (l : Label) (h : transfersApartCheck s l = true) :
    TransfersApart s l := by
  unfold transfersApartCheck at h
  unfold TransfersApart
  split at h
  · intro q hq
    rw [hq] at h
    simpa using h
  · trivial

theorem keepsElectorate_of_check (s : State) (l : Label)
    (h : (noVoterEditsCheck l && transfersApartCheck s l) = true) : KeepsElectorate s l := by
  rw [Bool.and_eq_true] at h
  exact ⟨noVoterEdits_of_check s l h.1, transfersApart_of_check s l h.2⟩

/-- Account 1 transfers its policy to account 7, which has none, and the administrator ends the
policy of account 2. -/
theorem electorate_of_first_transfer : ∃ s, (contract demoHost).Reach KeepsElectorate s ∧
    s.getActivePolicyCount 7 = 1 ∧ s.activePolicies 7 = 1 ∧ 7 ∈ s.getVoters ∧
    s.activePolicies 2 = 0 ∧ 2 ∉ s.getVoters := by
  obtain ⟨s, hreach, hval⟩ := exists_of_follow keepsElectorate_of_check (deployed 0)
    [demoInit, demoBind 1 .auto 10000000, demoBind 2 .auto 10000000,
      demoCall (.policy (.transferPolicy 1 1 7)),
      demoCall (.policy (.adminTerminatePolicy adminAddress 2 1 .adminOverride false))]
    (f := fun s => (s.getActivePolicyCount 7, s.getActivePolicyCount 2)) (a := (1, 0))
    (fresh_deployed (by decide)) (by simp [demoInit, demoBind]) (by decide +kernel)
  obtain ⟨h₇, h₂⟩ := Prod.mk.inj hval
  obtain ⟨hcount₇, hmem₇⟩ := electorate_of_reach hreach 7
  obtain ⟨hcount₂, hmem₂⟩ := electorate_of_reach hreach 2
  rw [h₇] at hcount₇
  rw [h₂] at hcount₂
  refine ⟨s, hreach, h₇, hcount₇.symm, ?_, hcount₂.symm, ?_⟩
  · rw [hmem₇]
    omega
  · rw [hmem₂]
    omega

/-- **A transfer over an active policy counts a policy that is gone.**  Accounts 1 and 2 have a
policy each, both with the id 1, and the one is transferred to the other's holder.  Account 2 then
counts two active policies and has one; when this one is ended too, it stays a voter with none. -/
theorem electorate_lost_by_transfer : (∃ s, (contract demoHost).Reach NoVoterEdits s ∧
      s.getActivePolicyCount 2 = 2 ∧ s.activePolicies 2 = 1) ∧
    ∃ s, (contract demoHost).Reach NoVoterEdits s ∧ 2 ∈ s.getVoters ∧ s.activePolicies 2 = 0 := by
  constructor
  · obtain ⟨s, hreach, hval⟩ := exists_of_follow (fun s l => noVoterEdits_of_check s l) (deployed 0)
      [demoInit, demoBind 1 .auto 10000000, demoBind 2 .auto 10000000,
        demoCall (.policy (.transferPolicy 1 1 2))]
      (f := fun s => (s.getActivePolicyCount 2, s.activePolicies 2)) (a := (2, 1))
      (fresh_deployed (by decide)) (by simp [demoInit, demoBind]) (by decide +kernel)
    obtain ⟨hcount, hactive⟩ := Prod.mk.inj hval
    exact ⟨s, hreach, hcount, hactive⟩
  · obtain ⟨s, hreach, hval⟩ := exists_of_follow (fun s l => noVoterEdits_of_check s l) (deployed 0)
      [demoInit, demoBind 1 .auto 10000000, demoBind 2 .auto 10000000,
        demoCall (.policy (.transferPolicy 1 1 2)),
        demoCall (.policy (.adminTerminatePolicy adminAddress 2 1 .adminOverride false))]
      (f := fun s => (decide (2 ∈ s.getVoters), s.activePolicies 2)) (a := (true, 0))
      (fresh_deployed (by decide)) (by simp [demoInit, demoBind]) (by decide +kernel)
    obtain ⟨hmem, hactive⟩ := Prod.mk.inj hval
    exact ⟨s, hreach, of_decide_eq_true hmem, hactive⟩

end NiffyInsure
