import NiffyInsure.Contract

/-!
# What a call changes

What a call can change falls into kinds: the kinds of storage keys, the token balances
(`cash`), the payout log and the events of the kinds that are followed.  `Frame ks s s'` says that
`s'` is `s` up to the kinds `ks` and the other events, in the same ledger.  The relation is kept
under every write of one of its kinds, so that a program's frame is read off its writes by `simp`.
The lemmas here are about the helpers that the entrypoints share: the book, the tokens, the voter
registry, the status index, the counters.
-/

namespace NiffyInsure

/-- What can change. -/
inductive Kind where
  | claim | claimCounter | openClaim | vote | appealVote | claimVoters | appealVoters
  | votingPower | commitReveal | fraudScore | claimQuorum | rateLimit | ratePrev | lastResolved
  | filingFeePaid | rolling
  | policy | policyCounter | nonce | statusIndex | expiryMark
  | registry | activeCount | delegations
  | assetLedger | treasury | sweepUse
  | admin | pendingAdmin | pendingAction | govCooldown | maxVoters | assetDecimals | calcVersion
  | config | actionWindow | gracePeriod | rollingConfig | votingRules | sweepLimit
  | evidenceRules | pricing
  | governance | statusEvent | strikeEvent | premiumEvent
  | cash | payout
  deriving DecidableEq

@[simp] def DataKey.kind : DataKey → Kind
  | .claim _ => .claim
  | .claimCounter => .claimCounter
  | .openClaim _ _ => .openClaim
  | .vote _ _ => .vote
  | .appealVote _ _ => .appealVote
  | .claimVoters _ => .claimVoters
  | .appealVoters _ => .appealVoters
  | .claimVoterPowerOverride _ _ => .votingPower
  | .commitRevealPhases _ | .voteCommitment _ _ => .commitReveal
  | .claimFraudScore _ => .fraudScore
  | .claimQuorumBps _ | .appealClaimQuorumBps _ => .claimQuorum
  | .lastClaimLedger _ => .rateLimit
  | .claimRateLimitPrev _ => .ratePrev
  | .lastClaimResolvedLedger _ _ => .lastResolved
  | .claimFilingFeePaid _ => .filingFeePaid
  | .rollingClaimState _ _ => .rolling
  | .policy _ _ => .policy
  | .policyCounter _ => .policyCounter
  | .holderNonce _ => .nonce
  | .policyByStatusIndex _ => .statusIndex
  | .policyExpiredEventEndLedger _ _ => .expiryMark
  | .voters | .voterBucket _ | .voterBucketCount | .voterMember _ | .voterRegistryLen => .registry
  | .activePolicyCount _ => .activeCount
  | .voteDelegations => .delegations
  | .assetLedger _ => .assetLedger
  | .treasury => .treasury
  | .lastSweepLedger | .cumulativeSweptThisLedger => .sweepUse
  | .admin => .admin
  | .pendingAdmin | .pendingAdminExpiry => .pendingAdmin
  | .pendingAdminAction => .pendingAction
  | .adminActionWindowLedgers => .actionWindow
  | .gracePeriodLedgers => .gracePeriod
  | .rollingClaimCap | .rollingClaimWindowLedgers => .rollingConfig
  | .lastParamChangeLedger => .govCooldown
  | .quorumBps | .elevatedQuorumBps | .fraudScoreThreshold | .voteDurLedgers => .votingRules
  | .maxSweepPerLedger => .sweepLimit
  | .maxEvidenceCount | .minEvidenceCount | .gatewayAllowlist => .evidenceRules
  | .premiumTable | .assetPremiumTable _ => .pricing
  | .maxVotersPerClaim => .maxVoters
  | .assetDecimals _ => .assetDecimals
  | .lastCalcAbiVersion => .calcVersion
  | .proposalCounter | .proposal _ | .proposalVote _ _ | .lastProposalLedger _ => .governance
  | _ => .config

/-- The kind of an event, for the events that are followed: what closes the vote on a proposal,
what reports a claim's status, the strikes on a policy, its premiums or its expiry, and what
reports a change of prices. -/
@[reducible] def Event.kind : Event → Option Kind
  | .proposalResolved .. => some .governance
  | .claimStatusChanged .. => some .statusEvent
  | .claimRejected .. | .strikeIncremented .. | .policyDeactivated .. => some .strikeEvent
  | .policyExpired .. => some .expiryMark
  | .policyInitiated .. | .policyRenewed .. => some .premiumEvent
  | .multiplierTableUpdated _ | .assetPremiumTableSet .. => some .pricing
  | _ => none

@[simp] theorem Event.kind_proposalResolved (id : Nat) (key : Str) (v : Nat) (b : Bool) (n : Nat) :
    (Event.proposalResolved id key v b n).kind = some .governance := rfl

@[simp] theorem Event.kind_claimStatusChanged (id : Nat) (a b : ClaimStatus) (n : Nat) :
    (Event.claimStatusChanged id a b n).kind = some .statusEvent := rfl

@[simp] theorem Event.kind_claimRejected (id policyId : Nat) (a : Address) (x y n : Nat) :
    (Event.claimRejected id policyId a x y n).kind = some .strikeEvent := rfl

@[simp] theorem Event.kind_strikeIncremented (a : Address) (policyId id n : Nat) :
    (Event.strikeIncremented a policyId id n).kind = some .strikeEvent := rfl

@[simp] theorem Event.kind_policyDeactivated (a : Address) (policyId r n : Nat) :
    (Event.policyDeactivated a policyId r n).kind = some .strikeEvent := rfl

/-- The kinds of the events that are followed. -/
def eventKinds : List Kind :=
  [.governance, .statusEvent, .strikeEvent, .expiryMark, .premiumEvent, .pricing]

theorem Event.kind_mem {e : Event} {kd : Kind} (h : e.kind = some kd) : kd ∈ eventKinds := by
  unfold Event.kind at h
  split at h <;> cases h <;> simp [eventKinds]

/-- The published events of one kind, in order. -/
def State.eventsOf (s : State) (kd : Kind) : List Event := s.events.filter (·.kind = some kd)

theorem State.eventsOf_emit (s : State) (e : Event) (kd : Kind) :
    (s.emit e).eventsOf kd = s.eventsOf kd ++ if e.kind = some kd then [e] else [] := by
  have hone : [e].filter (·.kind = some kd) = if e.kind = some kd then [e] else [] := by
    by_cases h : e.kind = some kd
    · rw [if_pos h]
      exact List.filter_cons_of_pos (decide_eq_true h)
    · rw [if_neg h]
      exact List.filter_cons_of_neg fun hd => h (of_decide_eq_true hd)
  rw [← hone]
  exact List.filter_append ..

theorem State.filterMap_emit {α : Type} (f : Event → Option α) (s : State) (e : Event) :
    (s.emit e).events.filterMap f = s.events.filterMap f ++ (f e).toList := by
  change (s.events ++ [e]).filterMap f = _
  rw [List.filterMap_append]
  cases h : f e <;> simp [h]

/-- What is read off the events of one kind. -/
theorem State.filterMap_eventsOf {α : Type} {f : Event → Option α} {kd : Kind}
    (hf : ∀ e, e.kind ≠ some kd → f e = none) (s : State) :
    (s.eventsOf kd).filterMap f = s.events.filterMap f := by
  unfold State.eventsOf
  rw [List.filterMap_filter]
  congr 1
  funext e
  by_cases he : e.kind = some kd
  · rw [if_pos (decide_eq_true he)]
  · rw [hf e he, if_neg fun hd => he (of_decide_eq_true hd)]

@[simp] theorem State.eventsOf_set (s : State) (k : DataKey) (v : k.Val) (kd : Kind) :
    (s.set k v).eventsOf kd = s.eventsOf kd := rfl

@[simp] theorem State.eventsOf_remove (s : State) (k : DataKey) (kd : Kind) :
    (s.remove k).eventsOf kd = s.eventsOf kd := rfl

theorem State.eventsOf_governance (s : State) : s.eventsOf .governance = s.resolutions := by
  unfold State.eventsOf State.resolutions
  congr 1
  funext e
  cases e <;> rfl

/-- A kind outside a list of kinds is outside every shorter one. -/
theorem contains_eq_false_of_subset {ks ks' : List Kind} {kd : Kind} (hsub : ks ⊆ ks')
    (h : ks'.contains kd = false) : ks.contains kd = false := by
  rw [Bool.eq_false_iff, Ne, List.contains_iff_mem] at h ⊢
  exact fun hmem => h (hsub hmem)

/-- `s'` is `s` up to the kinds `ks` and the events that are not followed. -/
structure Frame (ks : List Kind) (s s' : State) : Prop where
  get : ∀ k, ks.contains k.kind = false → s'.get k = s.get k
  balance : ks.contains .cash = false → s'.balance = s.balance
  allowance : ks.contains .cash = false → s'.allowance = s.allowance
  payouts : ks.contains .payout = false → s'.payouts = s.payouts
  events : ∀ kd, ks.contains kd = false → s'.eventsOf kd = s.eventsOf kd
  sequence : s'.sequence = s.sequence

namespace Frame

variable {ks ks' : List Kind} {s s' s'' : State} {k : DataKey}

@[simp] theorem refl (ks : List Kind) (s : State) : Frame ks s s :=
  ⟨fun _ _ => rfl, fun _ => rfl, fun _ => rfl, fun _ => rfl, fun _ _ => rfl, rfl⟩

theorem resolutions (h : Frame ks s s') (hk : ks.contains .governance = false) :
    s'.resolutions = s.resolutions := by
  rw [← State.eventsOf_governance, ← State.eventsOf_governance, h.events .governance hk]

/-- What is read off the events of one kind is framed with that kind. -/
theorem filterMap_events {α : Type} {f : Event → Option α} {kd : Kind}
    (hf : ∀ e, e.kind ≠ some kd → f e = none) (h : Frame ks s s')
    (hk : ks.contains kd = false) : s'.events.filterMap f = s.events.filterMap f := by
  rw [← State.filterMap_eventsOf hf s', ← State.filterMap_eventsOf hf s, h.events kd hk]

theorem trans (h : Frame ks s s') (h' : Frame ks s' s'') : Frame ks s s'' where
  get k hk := (h'.get k hk).trans (h.get k hk)
  balance hk := (h'.balance hk).trans (h.balance hk)
  allowance hk := (h'.allowance hk).trans (h.allowance hk)
  payouts hk := (h'.payouts hk).trans (h.payouts hk)
  events kd hk := (h'.events kd hk).trans (h.events kd hk)
  sequence := h'.sequence.trans h.sequence

theorem mono (h : Frame ks s s') (hsub : ks ⊆ ks') : Frame ks' s s' := by
  have hc : ∀ {x : Kind}, ks'.contains x = false → ks.contains x = false := by
    intro x hx
    exact contains_eq_false_of_subset hsub hx
  exact ⟨fun k hk => h.get k (hc hk), fun hk => h.balance (hc hk), fun hk => h.allowance (hc hk),
    fun hk => h.payouts (hc hk), fun kd hk => h.events kd (hc hk), h.sequence⟩

/-- A change of state that `Frame ks` does not see. -/
theorem iff_of_same (hget : ∀ k, ks.contains k.kind = false → s''.get k = s'.get k)
    (hbal : ks.contains .cash = false → s''.balance = s'.balance)
    (hall : ks.contains .cash = false → s''.allowance = s'.allowance)
    (hpay : ks.contains .payout = false → s''.payouts = s'.payouts)
    (hev : ∀ kd, ks.contains kd = false → s''.eventsOf kd = s'.eventsOf kd)
    (hseq : s''.sequence = s'.sequence) : Frame ks s s'' ↔ Frame ks s s' := by
  constructor
  · intro h
    exact h.trans ⟨fun k hk => (hget k hk).symm, fun hk => (hbal hk).symm,
      fun hk => (hall hk).symm, fun hk => (hpay hk).symm, fun kd hk => (hev kd hk).symm, hseq.symm⟩
  · intro h
    exact h.trans ⟨hget, hbal, hall, hpay, hev, hseq⟩

@[simp] theorem emit_iff {e : Event} (he : e.kind.all ks.contains = true) :
    Frame ks s (s'.emit e) ↔ Frame ks s s' := by
  refine iff_of_same (fun _ _ => rfl) (fun _ => rfl) (fun _ => rfl) (fun _ => rfl) ?_ rfl
  intro kd hk
  rw [State.eventsOf_emit, if_neg, List.append_nil]
  intro hkd
  rw [hkd, Option.all_some, hk] at he
  cases he

@[simp] theorem emit_other_iff {e : Event} (he : e.kind = none) :
    Frame ks s (s'.emit e) ↔ Frame ks s s' :=
  emit_iff (by rw [he]; rfl)

/-- Any event, where all the kinds of events may change. -/
theorem emit_any_iff (hk : eventKinds.all ks.contains = true) (e : Event) :
    Frame ks s (s'.emit e) ↔ Frame ks s s' := by
  refine emit_iff ?_
  cases he : e.kind with
  | none => rfl
  | some kd => exact List.all_eq_true.mp hk kd (Event.kind_mem he)

@[simp] theorem moveTokens_iff (hk : ks.contains .cash = true) (a x y : Address) (n : Int) :
    Frame ks s (s'.moveTokens a x y n) ↔ Frame ks s s' :=
  iff_of_same (fun _ _ => rfl) (fun h => by rw [hk] at h; cases h) (fun _ => rfl) (fun _ => rfl)
    (fun _ _ => rfl) rfl

@[simp] theorem logPayout_iff (hk : ks.contains .payout = true) (p : Payout) :
    Frame ks s (s'.logPayout p) ↔ Frame ks s s' :=
  iff_of_same (fun _ _ => rfl) (fun _ => rfl) (fun _ => rfl) (fun h => by rw [hk] at h; cases h)
    (fun _ _ => rfl) rfl

theorem ne_of_kind {k k' : DataKey} (hk : ks.contains k.kind = true)
    (hk' : ks.contains k'.kind = false) : k' ≠ k := by
  rintro rfl
  rw [hk] at hk'
  cases hk'

@[simp] theorem set_iff (hk : ks.contains k.kind = true) (v : k.Val) :
    Frame ks s (s'.set k v) ↔ Frame ks s s' :=
  iff_of_same (fun _ hk' => s'.get_set_of_ne v (ne_of_kind hk hk')) (fun _ => rfl) (fun _ => rfl)
    (fun _ => rfl) (fun _ _ => rfl) rfl

@[simp] theorem remove_iff (hk : ks.contains k.kind = true) :
    Frame ks s (s'.remove k) ↔ Frame ks s s' :=
  iff_of_same (fun _ hk' => s'.get_remove_of_ne (ne_of_kind hk hk')) (fun _ => rfl) (fun _ => rfl)
    (fun _ => rfl) (fun _ _ => rfl) rfl

@[simp] theorem setIfSome_iff (hk : ks.contains k.kind = true) (v : Option k.Val) :
    Frame ks s (s'.setIfSome k v) ↔ Frame ks s s' := by
  cases v with
  | none => rfl
  | some v => exact set_iff hk v

@[simp] theorem setOrRemove_iff (hk : ks.contains k.kind = true) (v : Option k.Val) :
    Frame ks s (s'.setOrRemove k v) ↔ Frame ks s s' := by
  cases v with
  | none => exact remove_iff hk
  | some v => exact set_iff hk v

theorem ignoreErr {r : Result State} (h : Frame ks s s') (hr : ∀ t, r = .ok t → Frame ks s' t) :
    Frame ks s (s'.ignoreErr r) := by
  cases r with
  | ok t => exact h.trans (hr t rfl)
  | error _ => exact h

end Frame

/-! ## Agreement at one kind -/

/-- `s'` has the entries of `s` at the keys of one kind. -/
def SameKind (kd : Kind) (s s' : State) : Prop := ∀ k, k.kind = kd → s'.get k = s.get k

theorem Frame.sameKind {ks : List Kind} {s s' : State} {kd : Kind} (h : Frame ks s s')
    (hkd : ks.contains kd = false) : SameKind kd s s' := by
  rintro k rfl
  exact h.get k hkd

namespace SameKind

variable {kd : Kind} {s s' s'' : State} {k : DataKey}

@[simp] theorem refl (kd : Kind) (s : State) : SameKind kd s s := fun _ _ => rfl

theorem symm (h : SameKind kd s s') : SameKind kd s' s := fun k hk => (h k hk).symm

theorem trans (h : SameKind kd s s') (h' : SameKind kd s' s'') : SameKind kd s s'' :=
  fun k hk => (h' k hk).trans (h k hk)

@[simp] theorem emit_iff (e : Event) : SameKind kd s (s'.emit e) ↔ SameKind kd s s' := Iff.rfl

@[simp] theorem emit_left_iff (e : Event) : SameKind kd (s.emit e) s' ↔ SameKind kd s s' := Iff.rfl

theorem of_set_ne (hk : k.kind ≠ kd) (v : k.Val) : SameKind kd s (s.set k v) := by
  rintro k' rfl
  exact s.get_set_of_ne v fun e => hk (e ▸ rfl)

theorem of_remove_ne (hk : k.kind ≠ kd) : SameKind kd s (s.remove k) := by
  rintro k' rfl
  exact s.get_remove_of_ne fun e => hk (e ▸ rfl)

@[simp] theorem set_iff (hk : decide (k.kind = kd) = false) (v : k.Val) :
    SameKind kd s (s'.set k v) ↔ SameKind kd s s' := by
  have hset : SameKind kd s' (s'.set k v) := of_set_ne (of_decide_eq_false hk) v
  exact ⟨fun h => h.trans hset.symm, fun h => h.trans hset⟩

@[simp] theorem remove_iff (hk : decide (k.kind = kd) = false) :
    SameKind kd s (s'.remove k) ↔ SameKind kd s s' := by
  have hremove : SameKind kd s' (s'.remove k) := of_remove_ne (of_decide_eq_false hk)
  exact ⟨fun h => h.trans hremove.symm, fun h => h.trans hremove⟩

@[simp] theorem setIfSome_iff (hk : decide (k.kind = kd) = false) (v : Option k.Val) :
    SameKind kd s (s'.setIfSome k v) ↔ SameKind kd s s' := by
  cases v with
  | none => exact Iff.rfl
  | some v => exact set_iff hk v

@[simp] theorem setOrRemove_iff (hk : decide (k.kind = kd) = false) (v : Option k.Val) :
    SameKind kd s (s'.setOrRemove k v) ↔ SameKind kd s s' := by
  cases v with
  | none => exact remove_iff hk
  | some v => exact set_iff hk v

/-- The same write on both sides. -/
theorem set (h : SameKind kd s s') (k : DataKey) (v : k.Val) :
    SameKind kd (s.set k v) (s'.set k v) := by
  intro k' hk'
  by_cases hk : k' = k
  · subst hk
    simp
  · simpa [hk] using h k' hk'

/-- A later write to the same key makes an earlier one invisible. -/
theorem overwrite {v : k.Val} (h : SameKind kd (s.set k v) s') (w : k.Val) :
    SameKind kd (s.set k w) (s'.set k w) := by
  intro k' hk'
  by_cases hk : k' = k
  · subst hk
    simp
  · simpa [hk] using h k' hk'

/-- The same removal on both sides. -/
theorem remove (h : SameKind kd s s') (k : DataKey) : SameKind kd (s.remove k) (s'.remove k) := by
  intro k' hk'
  by_cases hk : k' = k
  · subst hk
    simp
  · simpa [hk] using h k' hk'

end SameKind

/-! ## The book and the registry -/

section Helpers

variable {env : Env} {s s' : State}

theorem frame_recordPremiumIn {asset : Address} {amount : Int}
    (h : s.recordPremiumIn asset amount = .ok s') : Frame [.assetLedger] s s' := by
  obtain ⟨-, -, rfl⟩ := State.recordPremiumIn_eq_ok h
  simp

theorem frame_recordDeposit {asset : Address} {amount : Int}
    (h : s.recordDeposit asset amount = .ok s') : Frame [.assetLedger] s s' := by
  obtain ⟨-, -, rfl⟩ := State.recordDeposit_eq_ok h
  simp

theorem frame_reserveCoverage {asset : Address} {amount : Int}
    (h : s.reserveCoverage asset amount = .ok s') : Frame [.assetLedger] s s' := by
  obtain ⟨-, -, rfl⟩ := State.reserveCoverage_eq_ok h
  simp

theorem frame_releaseCoverage {asset : Address} {amount : Int}
    (h : s.releaseCoverage asset amount = .ok s') : Frame [.assetLedger] s s' := by
  by_cases hpos : 0 < amount
  · obtain ⟨-, -, rfl⟩ := (State.releaseCoverage_eq_ok_iff hpos).mp h
    simp
  · rw [State.releaseCoverage, if_pos (by omega)] at h
    cases h
    simp

theorem frame_recordPayoutOut {asset : Address} {amount release : Int}
    (h : s.recordPayoutOut asset amount release = .ok s') : Frame [.assetLedger] s s' := by
  obtain ⟨-, rfl⟩ := State.recordPayoutOut_eq_ok h
  simp

theorem frame_recordSweep {asset : Address} {amount : Int}
    (h : s.recordSweep asset amount = .ok s') : Frame [.assetLedger] s s' := by
  obtain ⟨-, -, -, rfl⟩ := State.recordSweep_eq_ok_iff.mp h
  simp

/-- A transfer moves the amount, which the sender had, and touches no storage. -/
theorem tokenTransfer_eq_ok {asset src dst : Address} {amount : Int} :
    s.tokenTransfer env asset src dst amount = .ok s' ↔
      (src = env.contract ∨ env.auths src = true) ∧ 0 ≤ amount ∧ amount ≤ s.balance asset src ∧
        s' = s.moveTokens asset src dst amount := by
  simp only [State.tokenTransfer, bind_eq_ok, ensure_eq_ok, pure_eq_ok]
  constructor
  · rintro ⟨-, h₁, -, h₂, -, h₃, rfl⟩
    exact ⟨h₁, h₂, h₃, rfl⟩
  · rintro ⟨h₁, h₂, h₃, rfl⟩
    exact ⟨(), h₁, (), h₂, (), h₃, rfl⟩

theorem frame_tokenTransfer {asset src dst : Address} {amount : Int}
    (h : s.tokenTransfer env asset src dst amount = .ok s') : Frame [.cash] s s' := by
  obtain ⟨-, -, -, rfl⟩ := tokenTransfer_eq_ok.mp h
  simp

/-- What `transfer_from` does to the balances. -/
theorem tokenTransferFrom_balance {asset src dst : Address} {amount : Int}
    (h : s.tokenTransferFrom env asset src dst amount = .ok s') :
    0 ≤ amount ∧ amount ≤ s.balance asset src ∧
      s'.balance = (s.moveTokens asset src dst amount).balance ∧ s'.payouts = s.payouts := by
  simp only [State.tokenTransferFrom, bind_eq_ok, ensure_eq_ok, pure_eq_ok] at h
  obtain ⟨-, h₁, -, -, -, h₃, rfl⟩ := h
  exact ⟨h₁, h₃, rfl, rfl⟩

theorem frame_tokenTransferFrom {asset src dst : Address} {amount : Int}
    (h : s.tokenTransferFrom env asset src dst amount = .ok s') : Frame [.cash] s s' := by
  simp only [State.tokenTransferFrom, bind_eq_ok, ensure_eq_ok, pure_eq_ok] at h
  obtain ⟨-, -, -, -, -, -, rfl⟩ := h
  exact ⟨fun _ _ => rfl, by simp, by simp, fun _ => rfl, fun _ _ => rfl, rfl⟩

theorem frame_collectPremium {src asset : Address} {amount : Int}
    (h : s.collectPremium env src asset amount = .ok s') : Frame [.assetLedger, .cash] s s' := by
  dsimp only [State.collectPremium] at h
  split at h
  · cases h
    simp
  · exact ((Frame.refl _ s).ignoreErr fun t ht => (frame_recordPremiumIn ht).mono (by simp)).trans
      ((frame_tokenTransferFrom h).mono (by simp))

/-- A premium with a protocol fee is a premium and then the fee. -/
theorem collectPremiumWithFee_eq_ok {src asset feeRecipient : Address}
    {treasuryAmount feeAmount : Int}
    (h : s.collectPremiumWithFee env src asset treasuryAmount feeRecipient feeAmount = .ok s') :
    ∃ s₁, s.collectPremium env src asset treasuryAmount = .ok s₁ ∧
      (s' = s₁ ∨ s₁.tokenTransferFrom env asset src feeRecipient feeAmount = .ok s') := by
  have hfee : ∀ s₁ : State, (if 0 < feeAmount then
      s₁.tokenTransferFrom env asset src feeRecipient feeAmount else .ok s₁) = .ok s' →
      s' = s₁ ∨ s₁.tokenTransferFrom env asset src feeRecipient feeAmount = .ok s' := by
    intro s₁ hfee
    split at hfee
    · exact .inr hfee
    · cases hfee
      exact .inl rfl
  dsimp only [State.collectPremiumWithFee] at h
  by_cases hpos : 0 < treasuryAmount
  · rw [if_pos hpos, if_pos hpos] at h
    obtain ⟨s₁, h₁, h₂⟩ := bind_eq_ok.mp h
    refine ⟨s₁, ?_, hfee s₁ h₂⟩
    rw [State.collectPremium, if_neg (by omega)]
    exact h₁
  · rw [if_neg hpos, if_neg hpos] at h
    obtain ⟨s₁, h₁, h₂⟩ := bind_eq_ok.mp h
    cases h₁
    refine ⟨s, ?_, hfee s h₂⟩
    rw [State.collectPremium, if_pos (by omega)]

theorem frame_collectPremiumWithFee {src asset feeRecipient : Address}
    {treasuryAmount feeAmount : Int}
    (h : s.collectPremiumWithFee env src asset treasuryAmount feeRecipient feeAmount = .ok s') :
    Frame [.assetLedger, .cash] s s' := by
  obtain ⟨s₁, h₁, rfl | h₂⟩ := collectPremiumWithFee_eq_ok h
  · exact frame_collectPremium h₁
  · exact (frame_collectPremium h₁).trans ((frame_tokenTransferFrom h₂).mono (by simp))

theorem frame_appendVoterUnchecked (s : State) (holder : Address) :
    Frame [.registry] s (s.appendVoterUnchecked holder) := by
  unfold State.appendVoterUnchecked
  dsimp only
  split
  · simp
  · split <;> simp

theorem frame_addVoter {holder : Address} (h : s.addVoter holder = .ok s') :
    Frame [.registry, .activeCount] s s' := by
  dsimp only [State.addVoter] at h
  split at h
  · simp only [bind_eq_ok, pure_eq_ok] at h
    obtain ⟨s₁, h₁, -, -, rfl⟩ := h
    cases h₁
    simp
  · split at h
    · cases h
    · simp only [bind_eq_ok, pure_eq_ok] at h
      obtain ⟨s₁, h₁, -, -, rfl⟩ := h
      cases h₁
      rw [Frame.set_iff (by simp)]
      exact (frame_appendVoterUnchecked s holder).mono (by simp)

theorem frame_storeLastBucket (s : State) (index : Nat) (bucket : List Address) :
    Frame [.registry] s (s.storeLastBucket index bucket) := by
  unfold State.storeLastBucket
  split <;> simp

theorem frame_removeVoter {holder : Address} (h : s.removeVoter holder = .ok s') :
    Frame [.registry] s s' := by
  unfold State.removeVoter at h
  split at h
  · cases h
    simp
  · split at h
    · cases h
      simp
    · simp only [bind_eq_ok, pure_eq_ok] at h
      obtain ⟨tail, -, rfl⟩ := h
      rw [Frame.set_iff (by simp), Frame.remove_iff (by simp)]
      split
      · exact frame_storeLastBucket s _ _
      · refine Frame.trans ?_ (frame_storeLastBucket _ _ _)
        simp

theorem frame_dropActivePolicy {holder : Address} (h : s.dropActivePolicy holder = .ok s') :
    Frame [.registry, .activeCount] s s' := by
  have hdec : Frame [.registry, .activeCount] s (s.decrementHolderActivePolicies holder) := by
    simp [State.decrementHolderActivePolicies]
  dsimp only [State.dropActivePolicy] at h
  split at h
  · exact hdec.trans ((frame_removeVoter h).mono (by simp))
  · cases h
    exact hdec

theorem frame_indexPolicyByStatus (s : State) (status : PolicyStatus) (key : PolicyLookupKey) :
    Frame [.statusIndex] s (s.indexPolicyByStatus status key) := by
  unfold State.indexPolicyByStatus
  dsimp only
  split <;> simp

theorem frame_unindexPolicyByStatus (s : State) (status : PolicyStatus) (key : PolicyLookupKey) :
    Frame [.statusIndex] s (s.unindexPolicyByStatus status key) := by
  unfold State.unindexPolicyByStatus
  dsimp only
  split <;> simp

theorem frame_reindexPolicy (s : State) (holder : Address) (policyId : Nat) (p q : Policy) :
    Frame [.statusIndex] s (s.reindexPolicy holder policyId p q) := by
  unfold State.reindexPolicy
  dsimp only
  split
  · simp
  · exact (frame_unindexPolicyByStatus s _ _).trans (frame_indexPolicyByStatus _ _ _)

theorem frame_computeQuote {input : RiskInput} {baseAmount : Int} {quoteTtl : Nat}
    {asset : Address} {q : PremiumQuote}
    (h : s.computeQuote env input baseAmount quoteTtl asset = .ok (q, s')) :
    Frame [.calcVersion] s s' := by
  obtain ⟨hget, hb, ha, hs, hp, fallbacks, he⟩ := s.quoteFrame_of_computeQuote h
  refine ⟨fun k hk => hget k ?_, fun _ => hb, fun _ => ha, fun _ => hp, fun kd _ => ?_, hs⟩
  · rintro rfl
    simp at hk
  · have hnone : (fallbacks.map Event.calculatorFallback).filter (·.kind = some kd) = [] := by
      simp [List.filter_eq_nil_iff]
    rw [State.eventsOf, he, List.filter_append, hnone, List.append_nil]
    rfl

theorem frame_checkFileClaim {holder : Address} {policyId now : Nat} {amount : Int}
    (h : s.checkFileClaim holder policyId amount now = .ok s') : Frame [.rolling] s s' := by
  rcases s.checkFileClaim_eq_ok h with rfl | ⟨st, rfl⟩
  · simp
  · simp

theorem frame_checkAndBumpNonce {holder : Address} {expected : Option Nat}
    (h : s.checkAndBumpNonce holder expected = .ok s') : Frame [.nonce] s s' := by
  simp only [State.checkAndBumpNonce, bind_eq_ok, pure_eq_ok] at h
  obtain ⟨-, -, -, -, rfl⟩ := h
  simp

theorem nextClaimId_eq_ok {id : Nat} (h : s.nextClaimId = .ok (id, s')) :
    id = s.getClaimCounter + 1 ∧ s' = s.set .claimCounter id := by
  simp only [State.nextClaimId, bind_eq_ok, pure_eq_ok, Prod.mk.injEq] at h
  obtain ⟨-, -, rfl, rfl⟩ := h
  exact ⟨rfl, rfl⟩

theorem nextPolicyId_eq_ok {holder : Address} {id : Nat}
    (h : s.nextPolicyId holder = .ok (id, s')) :
    id = s.getPolicyCounter holder + 1 ∧ s' = s.set (.policyCounter holder) id := by
  simp only [State.nextPolicyId, bind_eq_ok, pure_eq_ok, Prod.mk.injEq] at h
  obtain ⟨-, -, rfl, rfl⟩ := h
  exact ⟨rfl, rfl⟩

end Helpers

end NiffyInsure
