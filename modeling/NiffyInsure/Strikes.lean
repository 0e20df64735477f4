import NiffyInsure.ClaimEdit
import NiffyInsure.Lifecycle
import NiffyInsure.PolicyStep
import NiffyInsure.Trace

/-!
# One strike per claim

A rejected claim is reported, and its policy gets a strike.  What was reported is read off the
events of a trace (`reportsOf`), and `struckBy` keeps, beside the run, the list of the claims whose
strikes a policy carries: the list moves with the policy when it is transferred, and a new policy
starts with an empty one.

The base round may be called on a claim under appeal, which was rejected before; if it is rejected
there once more, the claim strikes twice.  `RejectsOnce` leaves these calls out.

* `reports_closeRound`: what the end of the base round reports.
* `StrikesKept`: a claim is reported once at most and not before it leaves `Processing`, and the
  strike count of a policy is the length of its list, which has no duplicates.
* `one_strike_per_claim`: every run that rejects once has this, and a policy is struck out only with
  the strikes of `STRIKE_DEACTIVATION_THRESHOLD` claims.
-/

namespace NiffyInsure

open Machine

/-! ## Reports -/

/-- What the events say about rejected claims. -/
inductive Report where
  | rejected (claimId : Nat)
  | struck (holder : Address) (policyId claimId : Nat)
  deriving DecidableEq

def Event.report : Event → Option Report
  | .claimRejected claimId .. => some (.rejected claimId)
  | .strikeIncremented holder policyId claimId _ => some (.struck holder policyId claimId)
  | _ => none

/-- The reports that were published, in order. -/
def State.reports (s : State) : List Report := s.events.filterMap Event.report

/-- How often the claim is reported as rejected. -/
def rejectionsOf (log : List Report) (id : Nat) : Nat := log.count (.rejected id)

/-- The strike is for this claim. -/
def Report.strikes (id : Nat) : Report → Bool
  | .struck _ _ claimId => claimId == id
  | .rejected _ => false

/-- How often a strike for the claim is reported. -/
def strikesOf (log : List Report) (id : Nat) : Nat := log.countP (Report.strikes id)

/-- The claims that are reported to strike the policy. -/
def strikesAt (log : List Report) (holder : Address) (policyId : Nat) : List Nat :=
  log.filterMap fun
    | .struck h p id => if h = holder ∧ p = policyId then some id else none
    | .rejected _ => none

/-- The report of a rejected claim, with its strike if the policy is stored. -/
def State.rejection (s : State) (claim : Claim) : List Report :=
  .rejected claim.claimId :: if (s.getPolicy claim.claimant claim.policyId).isSome = true then
    [.struck claim.claimant claim.policyId claim.claimId] else []

section Reports

variable {s s' : State} {ks : List Kind} {claimId : Nat}

@[simp] theorem State.reports_set (s : State) (k : DataKey) (v : k.Val) :
    (s.set k v).reports = s.reports := rfl

@[simp] theorem State.reports_remove (s : State) (k : DataKey) :
    (s.remove k).reports = s.reports := rfl

theorem State.reports_emit (s : State) (e : Event) :
    (s.emit e).reports = s.reports ++ e.report.toList :=
  State.filterMap_emit _ s e

theorem reports_of_frame (h : Frame ks s s') (hk : ks.contains .strikeEvent = false) :
    s'.reports = s.reports := by
  refine Frame.filterMap_events ?_ h hk
  intro e he
  cases e <;> first | rfl | exact absurd rfl he

theorem reports_onReject {claim : Claim} (h : onReject s claim = .ok s') :
    s'.reports = s.reports ++ s.rejection claim := by
  dsimp only [onReject, State.getPolicy] at h
  simp only [State.get_emit] at h
  unfold State.rejection
  split at h
  · rename_i hnone
    cases h
    rw [State.reports_emit, State.getPolicy, hnone]
    rfl
  · rename_i p hp
    rw [State.getPolicy, hp, Option.isSome_some, if_pos rfl]
    split at h
    · simp only [bind_eq_ok, pure_eq_ok] at h
      obtain ⟨s₃, h₃, rfl⟩ := h
      rw [State.reports_emit, reports_of_frame (frame_dropActivePolicy h₃) rfl, State.reports_set,
        State.reports_emit, State.reports_emit]
      simp [Event.report]
    · cases h
      rw [State.reports_set, State.reports_emit, State.reports_emit]
      simp [Event.report]

/-- **The end of the base round reports a rejection, and nothing else.** -/
theorem reports_closeRound {before : ClaimStatus} {claim : Claim}
    (h : closeRound s claimId before claim = .ok s') :
    s'.reports = s.reports ++ if claim.status = .rejected then s.rejection claim else [] := by
  have hrec := frame_recordDecision s claimId before claim
  have hlog := reports_of_frame hrec rfl
  have hpol : (s.recordDecision claimId before claim).getPolicy claim.claimant claim.policyId =
      s.getPolicy claim.claimant claim.policyId := hrec.get (.policy _ _) rfl
  obtain ⟨hrej, h⟩ | ⟨hrej, rfl⟩ := closeRound_cases h
  · rw [reports_onReject h, hlog, if_pos hrej, State.rejection, State.rejection, hpol]
  · rw [hlog, if_neg hrej, List.append_nil]

end Reports

/-! ## What is kept -/

/-- The claim is not filed, or still in `Processing`. -/
def Unheard (s : State) (id : Nat) : Prop := ∀ c, s.getClaim id = some c → c.status = .processing

/-- The lists of the claims that strike the policies. -/
abbrev StrikeLists := Address → Nat → List Nat

/-- The lists after further reports. -/
def StrikeLists.extend (f : StrikeLists) (log : List Report) : StrikeLists :=
  fun holder policyId => f holder policyId ++ strikesAt log holder policyId

/-- A claim is reported once at most and not before it is heard; the strikes of a policy are those
of the claims on its list, which were rejected and are distinct. -/
structure StrikesKept (s : State) (log : List Report) (f : StrikeLists) : Prop where
  once : ∀ id, rejectionsOf log id ≤ 1
  reported : ∀ id, strikesOf log id ≤ rejectionsOf log id
  unheard : ∀ id, Unheard s id → rejectionsOf log id = 0
  counted : ∀ holder policyId p, s.getPolicy holder policyId = some p →
    p.strikeCount = min (f holder policyId).length U32_MAX
  absent : ∀ holder policyId, s.getPolicy holder policyId = none → f holder policyId = []
  nodup : ∀ holder policyId, (f holder policyId).Nodup
  rejected : ∀ holder policyId, ∀ id ∈ f holder policyId, 1 ≤ rejectionsOf log id

/-- The policies keep their strikes. -/
def SameStrikes (s s' : State) : Prop :=
  ∀ holder policyId, (s'.getPolicy holder policyId).map (·.strikeCount) =
    (s.getPolicy holder policyId).map (·.strikeCount)

/-- The step reports something, and the strikes are kept with these reports. -/
def StrikeStep (s s' : State) : Prop :=
  ∃ log, s'.reports = s.reports ++ log ∧
    ∀ log₀ f, StrikesKept s log₀ f → StrikesKept s' (log₀ ++ log) (f.extend log)

section Kept

variable {s s' s'' : State} {claimId : Nat} {log log' : List Report} {f : StrikeLists}

theorem SameStrikes.of_same (h : SameKind .policy s s') : SameStrikes s s' := by
  intro holder policyId
  rw [getPolicy_of_same h]

theorem SameStrikes.of_write {holder : Address} {policyId : Nat} {p q : Policy}
    (hp : s.getPolicy holder policyId = some p)
    (h : SameKind .policy (s.setPolicy holder policyId q) s')
    (hq : q.strikeCount = p.strikeCount) : SameStrikes s s' := by
  intro a id
  rw [getPolicy_of_write h]
  split
  · rename_i heq
    obtain ⟨rfl, rfl⟩ := heq
    rw [hp, Option.map_some, Option.map_some, hq]
  · rfl

theorem SameStrikes.trans (h : SameStrikes s s') (h' : SameStrikes s' s'') : SameStrikes s s'' :=
  fun holder policyId => (h' holder policyId).trans (h holder policyId)

theorem extend_nil (f : StrikeLists) : f.extend [] = f := by
  funext holder policyId
  exact List.append_nil _

theorem extend_append (f : StrikeLists) (log log' : List Report) :
    f.extend (log ++ log') = (f.extend log).extend log' := by
  funext holder policyId
  simp only [StrikeLists.extend, strikesAt, List.filterMap_append, List.append_assoc]

theorem StrikesKept.of_same (h : StrikesKept s log f) (hpol : SameStrikes s s')
    (hclaim : ∀ id, Unheard s' id → Unheard s id) : StrikesKept s' log f where
  once := h.once
  reported := h.reported
  unheard id hid := h.unheard id (hclaim id hid)
  counted holder policyId p' hp' := by
    have heq := hpol holder policyId
    rw [hp', Option.map_some] at heq
    obtain ⟨p, hp, heq⟩ := Option.map_eq_some_iff.mp heq.symm
    rw [← heq]
    exact h.counted holder policyId p hp
  absent holder policyId hnone := by
    have heq := hpol holder policyId
    rw [hnone, Option.map_none] at heq
    exact h.absent holder policyId (Option.map_eq_none_iff.mp heq.symm)
  nodup := h.nodup
  rejected := h.rejected

theorem StrikeStep.quiet (hlog : s'.reports = s.reports) (hpol : SameStrikes s s')
    (hclaim : ∀ id, Unheard s' id → Unheard s id) : StrikeStep s s' := by
  refine ⟨[], by rw [hlog, List.append_nil], ?_⟩
  intro log₀ f h
  rw [List.append_nil, extend_nil]
  exact h.of_same hpol hclaim

theorem StrikeStep.trans (h : StrikeStep s s') (h' : StrikeStep s' s'') : StrikeStep s s'' := by
  obtain ⟨log, hlog, hkeep⟩ := h
  obtain ⟨log', hlog', hkeep'⟩ := h'
  refine ⟨log ++ log', by rw [hlog', hlog, List.append_assoc], ?_⟩
  intro log₀ f hs
  rw [← List.append_assoc, extend_append]
  exact hkeep' _ _ (hkeep _ _ hs)

/-! ## A rejection -/

theorem strikeCount_struck (p : Policy) (now : Nat) :
    (p.struck now).strikeCount = saturatingAdd32 p.strikeCount 1 := by
  unfold Policy.struck
  split <;> rfl

theorem rejectionsOf_append (log log' : List Report) (id : Nat) :
    rejectionsOf (log ++ log') id = rejectionsOf log id + rejectionsOf log' id :=
  List.count_append

theorem strikesOf_append (log log' : List Report) (id : Nat) :
    strikesOf (log ++ log') id = strikesOf log id + strikesOf log' id :=
  List.countP_append

theorem rejectionsOf_rejection (s : State) (claim : Claim) (id : Nat) :
    rejectionsOf (s.rejection claim) id = if id = claim.claimId then 1 else 0 := by
  unfold rejectionsOf State.rejection
  have htail : ∀ b : Prop, [Decidable b] → List.count (Report.rejected id)
      (if b then [.struck claim.claimant claim.policyId claim.claimId] else []) = 0 := by
    intro b _
    split <;> simp
  rw [List.count_cons, htail, Nat.zero_add]
  by_cases hid : id = claim.claimId
  · rw [if_pos hid, hid, if_pos (beq_self_eq_true _)]
  · rw [if_neg hid, if_neg]
    simpa using Ne.symm hid

theorem strikesOf_rejection (s : State) (claim : Claim) (id : Nat) :
    strikesOf (s.rejection claim) id ≤ if id = claim.claimId then 1 else 0 := by
  unfold strikesOf State.rejection
  rw [List.countP_cons_of_neg (by simp [Report.strikes])]
  split
  · rw [List.countP_singleton]
    by_cases hid : id = claim.claimId
    · rw [if_pos hid]
      split <;> omega
    · rw [if_neg hid, if_neg]
      simpa [Report.strikes] using Ne.symm hid
  · exact Nat.zero_le _

theorem strikesAt_rejection (s : State) (claim : Claim) (holder : Address) (policyId : Nat) :
    strikesAt (s.rejection claim) holder policyId =
      if (s.getPolicy claim.claimant claim.policyId).isSome = true ∧ claim.claimant = holder ∧
        claim.policyId = policyId then [claim.claimId] else [] := by
  unfold strikesAt State.rejection
  by_cases hsome : (s.getPolicy claim.claimant claim.policyId).isSome = true
  · rw [if_pos hsome]
    by_cases hkey : claim.claimant = holder ∧ claim.policyId = policyId
    · rw [if_pos ⟨hsome, hkey⟩]
      simp [hkey.1, hkey.2]
    · rw [if_neg fun h => hkey h.2]
      simp [hkey]
  · rw [if_neg hsome, if_neg fun h => hsome h.1]
    rfl

/-- **The rejection of a claim that was not heard keeps the strikes.** -/
theorem StrikesKept.rejection {claim : Claim} (h : StrikesKept s log f)
    (hfirst : Unheard s claim.claimId) (hlast : ¬ Unheard s' claim.claimId)
    (hclaim : ∀ id, id ≠ claim.claimId → Unheard s' id → Unheard s id)
    (hstrike : StrikesAt s s' claim.claimant claim.policyId) :
    StrikesKept s' (log ++ s.rejection claim) (f.extend (s.rejection claim)) := by
  have hnone : rejectionsOf log claim.claimId = 0 := h.unheard _ hfirst
  have hmem : ∀ holder policyId, claim.claimId ∉ f holder policyId := by
    intro holder policyId hmem
    have hpos := h.rejected holder policyId _ hmem
    omega
  constructor
  · intro id
    rw [rejectionsOf_append, rejectionsOf_rejection]
    by_cases hid : id = claim.claimId
    · subst hid
      rw [if_pos rfl]
      omega
    · rw [if_neg hid]
      exact h.once id
  · intro id
    rw [rejectionsOf_append, strikesOf_append, rejectionsOf_rejection]
    exact Nat.add_le_add (h.reported id) (strikesOf_rejection s claim id)
  · intro id hid
    have hne : id ≠ claim.claimId := by
      rintro rfl
      exact hlast hid
    rw [rejectionsOf_append, rejectionsOf_rejection, if_neg hne]
    exact h.unheard id (hclaim id hne hid)
  · intro holder policyId p' hp'
    rw [StrikeLists.extend, strikesAt_rejection]
    unfold StrikesAt at hstrike
    split at hstrike
    · rename_i hempty
      rw [hempty, if_neg fun hsome => absurd hsome.1 (by simp), List.append_nil]
      rw [getPolicy_of_same hstrike] at hp'
      exact h.counted holder policyId p' hp'
    · rename_i p hp
      rw [getPolicy_of_write hstrike] at hp'
      rw [hp]
      by_cases hkey : holder = claim.claimant ∧ policyId = claim.policyId
      · obtain ⟨rfl, rfl⟩ := hkey
        rw [if_pos ⟨rfl, rfl⟩] at hp'
        cases hp'
        rw [if_pos ⟨rfl, rfl, rfl⟩, strikeCount_struck, h.counted _ _ p hp, saturatingAdd32,
          List.length_append, List.length_singleton]
        omega
      · rw [if_neg hkey] at hp'
        rw [if_neg fun hk => hkey ⟨hk.2.1.symm, hk.2.2.symm⟩, List.append_nil]
        exact h.counted holder policyId p' hp'
  · intro holder policyId hnone
    rw [StrikeLists.extend, strikesAt_rejection]
    unfold StrikesAt at hstrike
    split at hstrike
    · rename_i hempty
      rw [hempty, if_neg fun hsome => absurd hsome.1 (by simp), List.append_nil]
      rw [getPolicy_of_same hstrike] at hnone
      exact h.absent holder policyId hnone
    · rw [getPolicy_of_write hstrike] at hnone
      by_cases hkey : holder = claim.claimant ∧ policyId = claim.policyId
      · rw [if_pos hkey] at hnone
        cases hnone
      · rw [if_neg hkey] at hnone
        rw [if_neg fun hk => hkey ⟨hk.2.1.symm, hk.2.2.symm⟩, List.append_nil]
        exact h.absent holder policyId hnone
  · intro holder policyId
    rw [StrikeLists.extend, strikesAt_rejection]
    split
    · rw [List.nodup_append]
      refine ⟨h.nodup holder policyId, List.nodup_singleton _, ?_⟩
      intro a ha b hb
      rw [List.mem_singleton.mp hb]
      rintro rfl
      exact hmem holder policyId ha
    · rw [List.append_nil]
      exact h.nodup holder policyId
  · intro holder policyId id hid
    rw [rejectionsOf_append, rejectionsOf_rejection]
    rw [StrikeLists.extend, strikesAt_rejection] at hid
    rcases List.mem_append.mp hid with hid | hid
    · have hpos := h.rejected holder policyId id hid
      omega
    · split at hid
      · rw [if_pos (List.mem_singleton.mp hid)]
        omega
      · cases hid

end Kept

/-! ## Claim calls -/

section ClaimCalls

variable {env : Env} {s s' : State} {claimId : Nat}

theorem Unheard.of_edited (h : ClaimsEdited s s') {id : Nat} (hid : Unheard s' id) :
    Unheard s id := by
  intro c hc
  obtain ⟨c', hc', hedits⟩ := h.moved id c hc
  exact hedits.lift (R := fun c c' => c'.status = .processing → c.status = .processing)
    (fun _ hst => hst) (fun _ _ _ h₁ h₂ hst => h₁ (h₂ hst)) (fun _ _ => Claim.Edit.processing)
    (hid c' hc')

theorem Unheard.of_same (h : SameKind .claim s s') {id : Nat} (hid : Unheard s' id) :
    Unheard s id := by
  intro c hc
  exact hid c (by rw [getClaim_of_same h, hc])

/-- The end of the base round, on a claim that it may not reject twice. -/
theorem strikeStep_of_closeRound {before : ClaimStatus} {c claim : Claim}
    (hc : s.getClaim claimId = some c) (h : closeRound s claimId before claim = .ok s')
    (hid : claim.claimId = claimId) (hst : claim.status = .approved ∨ claim.status = .rejected)
    (hfirst : claim.status = .rejected → c.status = .processing) : StrikeStep s s' := by
  obtain ⟨hrec, -, hstrike, hpolicy⟩ := closeRound_eq_ok h
  have hlog := reports_closeRound h
  have hget := getClaim_of_write hrec
  rw [hid] at hget
  have hheard : ¬ Unheard s' claimId := by
    intro hun
    have hproc := hun claim (by rw [hget, if_pos rfl])
    rw [hproc] at hst
    rcases hst with h | h <;> cases h
  have hother : ∀ id, id ≠ claimId → Unheard s' id → Unheard s id := by
    intro id hne hun d hd
    exact hun d (by rw [hget, if_neg hne, hd])
  by_cases hrej : claim.status = .rejected
  · rw [if_pos hrej] at hlog
    refine ⟨s.rejection claim, hlog, fun log₀ f hs => ?_⟩
    rw [← hid] at hheard hother hc
    refine hs.rejection ?_ hheard hother (hstrike hrej)
    intro d hd
    rw [hc] at hd
    cases hd
    exact hfirst hrej
  · rw [if_neg hrej, List.append_nil] at hlog
    refine .quiet hlog (.of_same (hpolicy hrej)) ?_
    intro id hun
    refine hother id ?_ hun
    rintro rfl
    exact hheard hun

theorem strikeStep_of_finalizeClaimInner {st : ClaimStatus} (hk : s.ClaimsKeyed)
    (hfirst : ∀ c, s.getClaim claimId = some c → c.status.isTerminal = false →
      s.deadlineOutcome claimId c = .rejected → c.status = .processing)
    (h : finalizeClaimInner s claimId = .ok (st, s')) : StrikeStep s s' := by
  obtain ⟨c, c', hc, hterm, -, -, -, hdec, hclose⟩ := finalizeClaimInner_eq_ok h
  obtain ⟨x, y, z, rfl⟩ := decide_eq_ok hdec
  exact strikeStep_of_closeRound hc hclose (hk claimId c hc).1 (s.deadlineOutcome_cases claimId c)
    (hfirst c hc hterm)

theorem strikeStep_of_voteOnClaim {voter : Address} {vote : VoteOption} {st : ClaimStatus}
    (hk : s.ClaimsKeyed) (hw : s.votingPowerFor claimId voter 1 = .ok 1)
    (hfirst : ∀ c, s.getClaim claimId = some c → c.status.isTerminal = false →
      s.ballotOutcome claimId (c.tally vote 1) = some .rejected → c.status = .processing)
    (h : voteOnClaim s voter claimId vote = .ok (st, s')) : StrikeStep s s' := by
  obtain ⟨c, w, hc, hcheck, hw', hcase⟩ := voteOnClaim_eq_ok h
  rw [hw] at hw'
  cases hw'
  rcases hcase with ⟨-, -, rfl⟩ | ⟨outcome, c', hout, -, hdec, hclose⟩
  · refine .quiet rfl (.of_same (by simp)) ?_
    intro id
    exact Unheard.of_edited (claimsEdited_of_voteOnClaim hk h)
  · have hvote : StrikeStep s (s.setVote claimId voter vote) :=
      .quiet rfl (.of_same (by simp)) fun id => Unheard.of_same (by simp)
    have hget : (s.setVote claimId voter vote).getClaim claimId = some c := by
      rw [getClaim_setVote, hc]
    obtain ⟨x, y, z, rfl⟩ := decide_eq_ok hdec
    refine hvote.trans (strikeStep_of_closeRound hget hclose ?_
      (State.ballotOutcome_eq_some hout) ?_)
    · exact (claimId_tally c vote 1).trans (hk claimId c hc).1
    · intro hrej
      change outcome = .rejected at hrej
      subst hrej
      exact hfirst c hc (checkBallot_eq_ok.mp hcheck).1 hout

/-- The base round rejects no claim that is under appeal. -/
def RejectsOnce (s : State) : Label → Prop
  | .call _ (.claim (.voteOnClaim _ id vote)) => ∀ c, s.getClaim id = some c →
    c.status = .underAppeal → s.ballotOutcome id (c.tally vote 1) ≠ some .rejected
  | .call _ (.claim (.finalizeClaim id)) => ∀ c, s.getClaim id = some c →
    c.status = .underAppeal → s.deadlineOutcome id c ≠ .rejected
  | _ => True

/-- **A claim call that rejects once keeps the strikes.** -/
theorem strikeStep_of_claimCall {host : Host} {c : ClaimCall}
    (hreach : (contract host).Reach always s) (h : c.exec env s = .ok s')
    (hok : RejectsOnce s (.call env (.claim c))) : StrikeStep s s' := by
  have hk := claimsKeyed_of_reach hreach
  have hran := ran_of_exec h
  have hf := frame_claimCall h
  -- a claim that the base round may decide is in `Processing` or under appeal
  have hopen : ∀ id d, s.getClaim id = some d → d.status.isTerminal = false →
      d.status ≠ .underAppeal → d.status = .processing := fun id d hd =>
    eq_processing_of_live (live_of_reach hreach id d hd)
  cases c with
  | voteOnClaim voter id vote =>
    obtain ⟨st, hran⟩ := hran
    refine strikeStep_of_voteOnClaim hk (votingPowerFor_of_reach hreach id voter) ?_ hran
    intro d hd hterm hrej
    exact hopen id d hd hterm fun hst => hok d hd hst hrej
  | finalizeClaim id =>
    obtain ⟨st, hran⟩ := hran
    refine strikeStep_of_finalizeClaimInner hk ?_ hran
    intro d hd hterm hrej
    exact hopen id d hd hterm fun hst => hok d hd hst hrej
  | processDeadline id =>
    obtain ⟨⟨d, hd, hproc⟩, st, hran⟩ := hran
    refine strikeStep_of_finalizeClaimInner hk ?_ hran
    intro d' hd' _ _
    rw [hd] at hd'
    cases hd'
    exact hproc
  | finalizeExpiredBatch ids =>
    obtain ⟨n, m, t, hloop, rfl⟩ := hran
    have hall : t.ClaimsKeyed ∧ StrikeStep s t := by
      refine finalizeBatchLoop_keeps (I := fun u => u.ClaimsKeyed ∧ StrikeStep s u) ?_ _ s 0 0 hloop
        ⟨hk, .quiet rfl (.of_same (.refl _ s)) fun _ hid => hid⟩
      rintro u u' id st hel h₁ ⟨hku, hu⟩
      obtain ⟨d, hd, hproc, -⟩ := isBatchEligible_iff.mp hel
      refine ⟨claimsKeyed_of_rewrites (rewrites_of_finalizeClaimInner h₁)
        ((frame_finalizeClaimInner h₁).sameKind rfl) hku,
        hu.trans (strikeStep_of_finalizeClaimInner hku ?_ h₁)⟩
      intro d' hd' _ _
      rw [hd] at hd'
      cases hd'
      exact hproc
    refine hall.2.trans (.quiet ?_ (.of_same (by simp)) fun id => Unheard.of_same (by simp))
    rw [State.reports_emit]
    exact List.append_nil _
  | fileClaim holder policyId amount details evidence expectedNonce =>
    obtain ⟨id, hran⟩ := hran
    refine .quiet (reports_of_frame hf rfl) (.of_same (hf.sameKind rfl)) ?_
    obtain ⟨policy, voters, deadline, -, -, -, hid, -, -, hrec, -⟩ := fileClaim_eq_ok hran
    intro i hi d hd
    refine hi d ?_
    rw [getClaim_of_write hrec, if_neg ?_]
    · exact hd
    · intro heq
      change i = id at heq
      have hle := (hk i d hd).2
      omega
  | _ =>
    refine .quiet (reports_of_frame hf rfl) (.of_same (hf.sameKind rfl)) ?_
    intro i
    exact Unheard.of_edited (claimsEdited_of_claimCall hk h rfl)

end ClaimCalls

/-! ## Policy calls -/

/-- A policy goes to another holder, and its list with it. -/
def StrikeLists.move (f : StrikeLists) (holder : Address) (policyId : Nat) (newHolder : Address) :
    StrikeLists :=
  fun h p => if h = holder ∧ p = policyId then []
    else if h = newHolder ∧ p = policyId then f holder policyId else f h p

section PolicyCalls

variable {env : Env} {s s' : State} {holder : Address} {policyId : Nat}

theorem sameStrikes_of_processExpired {ids : List Nat} {n : Nat}
    (h : processExpired s holder ids = .ok (n, s')) : SameStrikes s s' := by
  refine processExpiredLoop_keeps (I := SameStrikes s) ?_ _ s 0 h fun _ _ => rfl
  intro s₁ s₂ id b h₁ hs₁
  refine hs₁.trans ?_
  obtain hf | ⟨p, hp, -, -, hrec, -⟩ := processExpiredOne_eq_ok h₁
  · exact .of_same (hf.sameKind rfl)
  · exact .of_write hp hrec rfl

theorem sameStrikes_of_terminateInner {reason : TerminationReason} {byAdmin bypass : Bool}
    (h : terminateInner env s holder policyId reason byAdmin bypass = .ok s') :
    SameStrikes s s' := by
  obtain ⟨policy, hpolicy, hrec⟩ := terminateInner_records h
  exact .of_write hpolicy hrec rfl

/-- A new policy starts without strikes. -/
theorem strikeStep_of_initiatePolicy {a : InitiatePolicyArgs} {policy : Policy}
    (h : initiatePolicy env s a = .ok (policy, s')) (hlog : s'.reports = s.reports)
    (hclaim : SameKind .claim s s') : StrikeStep s s' := by
  obtain ⟨hrec, hholder, -⟩ := initiatePolicy_records h
  obtain ⟨premium, deductible, decimals, treasuryAmount, feeAmount, feeRecipient, s₃, s₄, s₅, -,
    hnew, -, -, habsent, -⟩ := initiatePolicy_eq_ok h
  have hzero : policy.strikeCount = 0 := by rw [hnew]; rfl
  refine ⟨[], by rw [hlog, List.append_nil], fun log₀ f hs => ?_⟩
  rw [List.append_nil, extend_nil]
  rw [hholder] at hrec
  refine ⟨hs.once, hs.reported, fun id hid => hs.unheard id (hid.of_same hclaim), ?_, ?_, hs.nodup,
    hs.rejected⟩
  · intro b id p hp
    rw [getPolicy_of_write hrec] at hp
    split at hp
    · rename_i heq
      obtain ⟨rfl, rfl⟩ := heq
      cases hp
      rw [hs.absent _ _ habsent, hzero]
      rfl
    · exact hs.counted b id p hp
  · intro b id hnone
    rw [getPolicy_of_write hrec] at hnone
    split at hnone
    · cases hnone
    · exact hs.absent b id hnone

/-- A transferred policy keeps its strikes. -/
theorem StrikesKept.transfer {newHolder : Address} {log : List Report} {f : StrikeLists}
    (hs : StrikesKept s log f) (h : transferPolicy env s holder policyId newHolder = .ok s')
    (hclaim : SameKind .claim s s') : StrikesKept s' log (f.move holder policyId newHolder) := by
  obtain ⟨policy, hget, -, hne, hrec, -⟩ := transferPolicy_records h
  have hmoved := getPolicy_of_move hne hrec
  refine ⟨hs.once, hs.reported, fun id hid => hs.unheard id (hid.of_same hclaim), ?_, ?_, ?_, ?_⟩
  · intro b id p hp
    rw [hmoved] at hp
    unfold StrikeLists.move
    split at hp
    · cases hp
    · rename_i hold
      rw [if_neg hold]
      split at hp
      · rename_i hnew
        cases hp
        rw [if_pos hnew]
        exact hs.counted holder policyId policy hget
      · rename_i hother
        rw [if_neg hother]
        exact hs.counted b id p hp
  · intro b id hnone
    rw [hmoved] at hnone
    unfold StrikeLists.move
    split at hnone
    · rename_i hold
      rw [if_pos hold]
    · rename_i hold
      rw [if_neg hold]
      split at hnone
      · cases hnone
      · rename_i hother
        rw [if_neg hother]
        exact hs.absent b id hnone
  · intro b id
    unfold StrikeLists.move
    split
    · exact List.nodup_nil
    · split
      · exact hs.nodup holder policyId
      · exact hs.nodup b id
  · intro b id i hi
    unfold StrikeLists.move at hi
    split at hi
    · cases hi
    · split at hi
      · exact hs.rejected holder policyId i hi
      · exact hs.rejected b id i hi

/-- The policy calls that neither move a policy nor make one. -/
theorem strikeStep_of_policyCall {c : PolicyCall} (h : c.exec env s = .ok s')
    (hc : ∀ holder policyId newHolder, c ≠ .transferPolicy holder policyId newHolder) :
    StrikeStep s s' := by
  have hran := policyRan_of_exec h
  have hf := frame_policyCall h
  have hlog : s'.reports = s.reports := reports_of_frame hf (c.untouched rfl)
  have hclaim : SameKind .claim s s' := hf.sameKind (c.untouched rfl)
  have hquiet : SameStrikes s s' → StrikeStep s s' := fun hsame =>
    .quiet hlog hsame fun id => Unheard.of_same hclaim
  cases c with
  | initiatePolicy =>
    obtain ⟨policy, hran⟩ := hran
    exact strikeStep_of_initiatePolicy hran hlog hclaim
  | transferPolicy holder policyId newHolder => exact absurd rfl (hc holder policyId newHolder)
  | setBeneficiary holder policyId b =>
    obtain ⟨policy, hpolicy, rfl | hrec⟩ := setBeneficiary_eq_ok hran
    · exact hquiet fun _ _ => rfl
    · exact hquiet (.of_write hpolicy hrec rfl)
  | adminUpdatePolicyMetadataUri holder policyId uri =>
    obtain ⟨policy, hpolicy, rfl | hrec⟩ := updatePolicyMetadataUri_eq_ok hran
    · exact hquiet fun _ _ => rfl
    · exact hquiet (.of_write hpolicy hrec rfl)
  | renewPolicy a =>
    obtain ⟨o, hran⟩ := hran
    obtain hf | ⟨policy, premium, s₁, s₂, -, hget, -, -, -, -, -, -, hrec, -⟩ :=
      renewPolicy_eq_ok hran
    · exact hquiet (.of_same (hf.sameKind rfl))
    · exact hquiet (.of_write hget hrec rfl)
  | terminatePolicy => exact hquiet (sameStrikes_of_terminateInner hran.2)
  | adminTerminatePolicy => exact hquiet (sameStrikes_of_terminateInner hran)
  | processExpired =>
    obtain ⟨n, hran⟩ := hran
    exact hquiet (sameStrikes_of_processExpired hran)

end PolicyCalls

/-! ## Runs -/

/-- What a move reports. -/
def reported (m : Move State Label) : List Report := m.after.reports.drop m.before.reports.length

/-- What the moves of a run report. -/
def Journal.reports (g : Journal) : List Report := g.flatMap reported

/-- The lists after a move. -/
def StrikeLists.carry (f : StrikeLists) (m : Move State Label) : StrikeLists :=
  match m.label with
  | .call _ (.policy (.transferPolicy holder policyId newHolder)) =>
    f.move holder policyId newHolder
  | _ => f.extend (reported m)

/-- **The claims whose strikes the policies carry.** -/
def struckBy (g : Journal) : StrikeLists := g.foldl StrikeLists.carry fun _ _ => []

section Runs

variable {host : Host} {s s' : State} {g : Journal} {l : Label}

theorem reported_eq {log : List Report} (h : s'.reports = s.reports ++ log) :
    reported ⟨s, l, s'⟩ = log := by
  rw [reported, h, List.drop_left]

theorem strikeStep_of_step (hreach : (contract host).Reach always s)
    (hstep : (contract host).step s l s') (hok : RejectsOnce s l)
    (hl : ∀ env holder policyId newHolder,
      l ≠ .call env (.policy (.transferPolicy holder policyId newHolder))) : StrikeStep s s' := by
  cases l with
  | closeLedger n =>
    obtain ⟨-, -, rfl⟩ := hstep
    exact .quiet rfl (fun _ _ => rfl) fun _ hid => hid
  | tokens b a =>
    obtain ⟨-, rfl⟩ := hstep
    exact .quiet rfl (fun _ _ => rfl) fun _ hid => hid
  | call env c =>
    have hf := frame_exec hstep.2
    cases c with
    | claim c => exact strikeStep_of_claimCall hreach hstep.2 hok
    | policy c =>
      refine strikeStep_of_policyCall hstep.2 ?_
      rintro holder policyId newHolder rfl
      exact hl env holder policyId newHolder rfl
    | treasury c =>
      exact .quiet (reports_of_frame hf (c.untouched rfl))
        (.of_same (hf.sameKind (c.untouched rfl)))
        fun id => Unheard.of_same (hf.sameKind (c.untouched rfl))
    | setting c =>
      exact .quiet (reports_of_frame hf rfl) (.of_same (hf.sameKind rfl))
        fun id => Unheard.of_same (hf.sameKind rfl)
    | governance c =>
      exact .quiet (reports_of_frame hf (c.untouched rfl))
        (.of_same (hf.sameKind (c.untouched rfl)))
        fun id => Unheard.of_same (hf.sameKind (c.untouched rfl))

theorem strikesKept_of_step (hreach : (contract host).Reach always s)
    (hstep : (contract host).step s l s') (hok : RejectsOnce s l)
    (hs : StrikesKept s (Journal.reports g) (struckBy g)) :
    StrikesKept s' (Journal.reports (g ++ [⟨s, l, s'⟩])) (struckBy (g ++ [⟨s, l, s'⟩])) := by
  have hlist : struckBy (g ++ [⟨s, l, s'⟩]) = (struckBy g).carry ⟨s, l, s'⟩ := by
    simp [struckBy]
  have hreports : Journal.reports (g ++ [⟨s, l, s'⟩]) =
      Journal.reports g ++ reported ⟨s, l, s'⟩ := by
    simp [Journal.reports]
  rw [hlist, hreports]
  by_cases hl : ∃ env holder policyId newHolder,
      l = .call env (.policy (.transferPolicy holder policyId newHolder))
  · obtain ⟨env, holder, policyId, newHolder, rfl⟩ := hl
    have hf := frame_exec hstep.2
    have hlog : s'.reports = s.reports ++ [] := by
      rw [List.append_nil]
      exact reports_of_frame hf rfl
    rw [reported_eq hlog, List.append_nil]
    exact hs.transfer (policyRan_of_exec (c := .transferPolicy holder policyId newHolder) hstep.2)
      (hf.sameKind rfl)
  · push Not at hl
    obtain ⟨log, hlog, hkeep⟩ := strikeStep_of_step hreach hstep hok hl
    have hcarry : (struckBy g).carry ⟨s, l, s'⟩ = (struckBy g).extend log := by
      unfold StrikeLists.carry
      split
      · rename_i env holder policyId newHolder heq
        exact absurd heq (hl env holder policyId newHolder)
      · rw [reported_eq hlog]
    rw [hcarry, reported_eq hlog]
    exact hkeep _ _ hs

theorem strikesKept_of_reach
    (h : (contract host).traced.Reach (fun p l => RejectsOnce p.1 l) (s, g)) :
    StrikesKept s (Journal.reports g) (struckBy g) := by
  refine h.trace_invariant (I := fun s g => StrikesKept s (Journal.reports g) (struckBy g)) ?_ ?_
  · intro s hs
    have hnone : ∀ a id, s.getPolicy a id = none := fun a id => State.Fresh.get host hs _
    refine ⟨fun _ => Nat.zero_le _, fun _ => Nat.zero_le _, fun _ _ => rfl, ?_, fun _ _ _ => rfl,
      fun _ _ => List.nodup_nil, fun _ _ _ hid => absurd hid List.not_mem_nil⟩
    intro a id p hp
    rw [hnone] at hp
    cases hp
  · intro s g l s' hreach hok hstep hI
    exact strikesKept_of_step hreach.to_always hstep hok hI

/-- An active policy that a claim call deactivates has reached the threshold. -/
theorem threshold_of_strikesPolicies {holder : Address} {policyId : Nat} {p : Policy}
    (h : StrikesPolicies s s') (hp : s.getPolicy holder policyId = some p)
    (hact : p.isActive = true) :
    ∃ q, s'.getPolicy holder policyId = some q ∧
      (q.isActive = true ∨ STRIKE_DEACTIVATION_THRESHOLD ≤ q.strikeCount) := by
  induction h with
  | refl => exact ⟨p, hp, .inl hact⟩
  | tail _ hlast ih =>
    obtain ⟨q, hq, hor⟩ := ih
    rcases hlast with hsame | ⟨a, id, hstrike⟩
    · exact ⟨q, by rw [getPolicy_of_same hsame, hq], hor⟩
    · unfold StrikesAt at hstrike
      split at hstrike
      · exact ⟨q, by rw [getPolicy_of_same hstrike, hq], hor⟩
      · rename_i r hr
        have hget := getPolicy_of_write hstrike holder policyId
        by_cases hkey : holder = a ∧ policyId = id
        · obtain ⟨rfl, rfl⟩ := hkey
          rw [if_pos ⟨rfl, rfl⟩] at hget
          rw [hq] at hr
          cases hr
          refine ⟨_, hget, ?_⟩
          rw [strikeCount_struck]
          by_cases hthr : STRIKE_DEACTIVATION_THRESHOLD ≤ saturatingAdd32 q.strikeCount 1
          · exact .inr hthr
          · left
            rw [Policy.struck, if_neg fun h => hthr h.1]
            refine hor.resolve_right fun hle => hthr ?_
            unfold saturatingAdd32 STRIKE_DEACTIVATION_THRESHOLD U32_MAX at *
            omega
        · rw [if_neg hkey] at hget
          exact ⟨q, hget.trans hq, hor⟩

/-- The move is a claim call that deactivates the policy. -/
def StrikesOut (m : Move State Label) (holder : Address) (policyId : Nat) : Prop :=
  (∃ env c, m.label = .call env (.claim c)) ∧
    (∃ p, m.before.getPolicy holder policyId = some p ∧ p.isActive = true) ∧
    ∃ q, m.after.getPolicy holder policyId = some q ∧ q.isActive = false

/-- **One strike per claim.**  In a run whose base rounds reject no claim that is under appeal, a
claim is reported as rejected once at most and strikes once at most; the strike count of a policy
is the number of the claims that struck it; and a policy that is struck out carries the strikes of
`STRIKE_DEACTIVATION_THRESHOLD` distinct claims that were rejected. -/
theorem one_strike_per_claim
    (h : (contract host).traced.Reach (fun p l => RejectsOnce p.1 l) (s, g)) :
    (∀ id, rejectionsOf (Journal.reports g) id ≤ 1 ∧ strikesOf (Journal.reports g) id ≤ 1) ∧
    (∀ holder policyId p, s.getPolicy holder policyId = some p →
      p.strikeCount = min (struckBy g holder policyId).length U32_MAX) ∧
    ∀ g₁ m g₂, g = g₁ ++ m :: g₂ → ∀ holder policyId, StrikesOut m holder policyId →
      STRIKE_DEACTIVATION_THRESHOLD ≤ (struckBy (g₁ ++ [m]) holder policyId).length ∧
      (struckBy (g₁ ++ [m]) holder policyId).Nodup ∧
      ∀ id ∈ struckBy (g₁ ++ [m]) holder policyId,
        rejectionsOf (Journal.reports (g₁ ++ [m])) id = 1 := by
  have hkept := strikesKept_of_reach h
  refine ⟨fun id => ⟨hkept.once id, (hkept.reported id).trans (hkept.once id)⟩, hkept.counted, ?_⟩
  rintro g₁ ⟨t, l, t'⟩ g₂ rfl holder policyId ⟨⟨env, c, hl⟩, ⟨p, hp, hact⟩, q, hq, hout⟩
  obtain ⟨hreach, hok, hstep⟩ := h.trace_split
  have hlast : StrikesKept t' (Journal.reports (g₁ ++ [⟨t, l, t'⟩]))
      (struckBy (g₁ ++ [⟨t, l, t'⟩])) :=
    strikesKept_of_step hreach.untrace.to_always hstep hok (strikesKept_of_reach hreach)
  change l = _ at hl
  subst hl
  obtain ⟨q', hq', hor⟩ := threshold_of_strikesPolicies
    (strikesPolicies_of_claimCall hstep.2) hp hact
  change t'.getPolicy holder policyId = some q at hq
  rw [hq] at hq'
  cases hq'
  have hthr := hor.resolve_left (by rw [hout]; decide)
  rw [hlast.counted holder policyId q hq] at hthr
  refine ⟨by omega, hlast.nodup holder policyId, ?_⟩
  intro id hid
  have hpos := hlast.rejected holder policyId id hid
  have hle := hlast.once id
  omega

end Runs

/-- `RejectsOnce`, computed. -/
def rejectsOnceCheck (s : State) : Label → Bool
  | .call _ (.claim (.voteOnClaim _ id vote)) => decide (∀ c ∈ s.getClaim id,
    c.status = .underAppeal → s.ballotOutcome id (c.tally vote 1) ≠ some .rejected)
  | .call _ (.claim (.finalizeClaim id)) => decide (∀ c ∈ s.getClaim id,
    c.status = .underAppeal → s.deadlineOutcome id c ≠ .rejected)
  | _ => true

theorem rejectsOnce_of_check (s : State) (l : Label) (h : rejectsOnceCheck s l = true) :
    RejectsOnce s l := by
  unfold rejectsOnceCheck at h
  unfold RejectsOnce
  split at h
  · exact of_decide_eq_true h
  · exact of_decide_eq_true h
  · trivial

/-- Account 1 files a claim a day, and account 2 rejects it. -/
def rejectedClaim (id ledger : Nat) : List Label :=
  [.closeLedger ledger, demoFile 1 1 1000, demoCall (.claim (.voteOnClaim 2 id .reject))]

/-- Three rejected claims strike the policy out. -/
theorem one_strike_per_claim_struck_out : ∃ s g p,
    (contract demoHost).traced.Reach (fun p l => RejectsOnce p.1 l) (s, g) ∧
      s.getPolicy 1 1 = some p ∧ p.isActive = false ∧ struckBy g 1 1 = [1, 2, 3] ∧
      p.strikeCount = min (struckBy g 1 1).length U32_MAX ∧
      ∀ id, rejectionsOf (Journal.reports g) id ≤ 1 ∧ strikesOf (Journal.reports g) id ≤ 1 := by
  obtain ⟨s, g, hreach, hval⟩ := exists_journal rejectsOnce_of_check (deployed 0)
    (demoSetup ++ rejectedClaim 1 1001 ++ rejectedClaim 2 20000 ++ rejectedClaim 3 40000)
    (f := fun p => ((p.1.getPolicy 1 1).map (·.isActive), struckBy p.2 1 1))
    (a := (some false, [1, 2, 3])) (fresh_deployed (by decide))
    (by simp [demoSetup, demoInit, demoBind, demoFile, rejectedClaim]) (by decide +kernel)
  obtain ⟨hpol, hlist⟩ := Prod.mk.inj hval
  obtain ⟨p, hp, hout⟩ := Option.map_eq_some_iff.mp hpol
  obtain ⟨honce, hcount, -⟩ := one_strike_per_claim hreach
  exact ⟨s, g, p, hreach, hp, hout, hlist, hcount 1 1 p hp, honce⟩

/-- **A claim that strikes twice**: it is rejected, its appeal is opened, and a further ballot of
the base round rejects it again. -/
theorem one_claim_two_strikes : ∃ s g,
    (contract demoHost).traced.Reach (fun p l => always p.1 l) (s, g) ∧
      rejectionsOf (Journal.reports g) 1 = 2 ∧ strikesOf (Journal.reports g) 1 = 2 ∧
      (s.getPolicy 1 1).map (·.strikeCount) = some 2 := by
  obtain ⟨s, g, hreach, hval⟩ := exists_journal always_of_noCheck (deployed 0)
    (demoSetup ++ [demoFile 1 1 1000, demoCall (.claim (.voteOnClaim 2 1 .reject)),
      demoCall (.claim (.openAppeal 1 1)), demoCall (.claim (.voteOnClaim 3 1 .approve))])
    (f := fun p => (rejectionsOf (Journal.reports p.2) 1, strikesOf (Journal.reports p.2) 1,
      (p.1.getPolicy 1 1).map (·.strikeCount)))
    (a := (2, 2, some 2)) (fresh_deployed (by decide))
    (by simp [demoSetup, demoInit, demoBind, demoFile]) (by decide +kernel)
  simp only [Prod.mk.injEq] at hval
  exact ⟨s, g, hreach, hval⟩

end NiffyInsure
