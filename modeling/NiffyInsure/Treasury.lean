import NiffyInsure.Ledger

/-!
# Treasury and admin actions

Deposits into the treasury, the three ways out of it (`drain`, `admin_sweep`,
`sweep_token`) and the two-step admin actions that can run a sweep or rotate the
treasury.  Each role falls back to the main admin while it is not configured.

`admin_sweep` refuses a sweep that the book cannot take.  `sweep_token` compares the cash
with the floor of protected funds and goes on when the book refuses the debit.
-/

namespace NiffyInsure

section Roles

variable (env : Env) (s : State)

/-- `require_admin`. -/
def requireAdmin : Result Address := do
  let admin ← okOr (s.get .admin) (.admin .notInitialized)
  requireAuth env admin
  pure admin

/-- The stored admin, or the address of a role when the role is configured. -/
def requireRole (role : Option Address) : Result Address := do
  let a ← okOr (role.or (s.get .admin)) (.admin .notInitialized)
  requireAuth env a
  pure a

/-- `require_treasury_admin`. -/
def requireTreasuryAdmin : Result Address := requireRole env s (s.get .treasuryAdmin)

/-- `require_param_admin`. -/
def requireParamAdmin : Result Address := requireRole env s (s.get .paramAdmin)

/-- `require_non_zero_addr`. -/
def requireNonZeroAddr (a : Address) : Result Unit :=
  ensure (a ≠ zeroAddress) (.admin .invalidAddress)

/-- `check_and_update_gov_cooldown`. -/
def checkAndUpdateGovCooldown : Result State := do
  let now := s.sequence
  let cooldown := s.getGovernanceCooldownLedgers
  ensure (cooldown = 0 ∨ (s.get .lastParamChangeLedger).all
    (fun last => decide (cooldown ≤ now - last)) = true) (.admin .governanceCooldownActive)
  pure (s.set .lastParamChangeLedger now)

end Roles

/-! ## Deposits and sweeps -/

section Sweeps

variable (env : Env) (s : State)

/-- `deposit_treasury`. -/
def depositTreasury (depositor : Address) (amount : Int) (asset : Address) : Result State := do
  ensure (0 < amount) (.error .zeroTreasuryDeposit)
  ensure (s.isAuthorizedDepositor depositor = true) (.error .unauthorizedTreasuryDepositor)
  ensure (s.isAllowedAsset asset = true) (.error .invalidAsset)
  requireAuth env depositor
  let s₁ ← s.transferIn env depositor asset amount
  pure (s₁.emit (.treasuryDeposited depositor asset amount s.sequence))

/-- The per-ledger withdrawal limit, which both sweeps keep in the same entries. -/
def State.checkSweepLimit (amount : Int) : Result State :=
  match s.get .maxSweepPerLedger with
  | none => .ok s
  | some maxSweep => do
    let now := s.sequence
    let cumulative := if s.get .lastSweepLedger = some now then s.getCumulativeSweptThisLedger
      else 0
    let newCumulative ←
      okOr (checkedAdd128 cumulative amount) (.admin .sweepLedgerLimitExceeded)
    ensure (newCumulative ≤ maxSweep) (.admin .sweepLedgerLimitExceeded)
    pure ((s.set .lastSweepLedger now).set .cumulativeSweptThisLedger newCumulative)

/-- `admin_sweep`. -/
def adminSweep (asset recipient : Address) (amount : Int) : Result State := do
  let _ ← requireTreasuryAdmin env s
  ensure (0 < amount) (.admin .invalidSweepAmount)
  ensure (s.isAllowedAsset asset = true) (.admin .assetNotAllowlisted)
  ensure (env.executable recipient = false ∨ s.isAllowedPayoutRecipient recipient = true)
    (.admin .invalidAddress)
  ensure (amount ≤ s.availableToSweep asset) (.admin .protectedBalanceViolation)
  let s₁ ← s.checkSweepLimit amount
  let s₂ ← mapErr (s₁.recordSweep asset amount) fun _ => .admin .protectedBalanceViolation
  let s₃ ← s₂.tokenTransfer env asset env.contract recipient amount
  pure (s₃.emit (.treasurySwept asset recipient amount s.sequence))

/-- `calculate_protected_balance`: the approved claims whose policy is bound to the asset. -/
def State.calculateProtectedBalance (asset : Address) : Int :=
  (List.range s.getClaimCounter).foldl (fun total i =>
    match s.getClaim (i + 1) with
    | some claim =>
      if claim.status = .approved then
        match s.getPolicy claim.claimant claim.policyId with
        | some policy =>
          if policy.asset = asset ∧ 0 < saturatingSub128 claim.amount claim.deductible then
            saturatingAdd128 total (saturatingSub128 claim.amount claim.deductible)
          else total
        | none => total
      else total
    | none => total) 0

/-- The notice period of a sweep, counted from the proposal of the pending action. -/
def State.checkSweepNotice : Result Unit :=
  let noticePeriod := s.getSweepNoticePeriodLedgers
  if noticePeriod = 0 then .ok ()
  else do
    let pending ← okOr (s.get .pendingAdminAction) (.admin .noPendingAdminAction)
    let proposedAt := pending.expiryLedger - s.getAdminActionWindowLedgers
    ensure (saturatingAdd32 proposedAt noticePeriod ≤ s.sequence) (.admin .sweepNoticePeriodActive)

/-- `sweep_token_inner`. -/
def sweepTokenInner (asset recipient : Address) (amount : Int) (reasonCode : Nat) :
    Result State := do
  ensure (0 < amount) (.admin .invalidSweepAmount)
  ensure (s.isAllowedAsset asset = true) (.admin .assetNotAllowlisted)
  let s₁ ← s.checkSweepLimit amount
  ensure ((s₁.get .sweepCap).all (fun cap => decide (amount ≤ cap)) = true)
    (.admin .sweepCapExceeded)
  s₁.checkSweepNotice
  let floor := max (s₁.getAssetLedger asset).reservedCoverage (s₁.calculateProtectedBalance asset)
  ensure (floor ≤ saturatingSub128 (s₁.balance asset env.contract) amount)
    (.admin .protectedBalanceViolation)
  -- the debit is dropped when the book cannot take it
  let s₂ := s₁.ignoreErr (s₁.recordSweep asset amount)
  let s₃ ← s₂.tokenTransfer env asset env.contract recipient amount
  let admin ← okOr (s₃.get .admin) (.admin .unauthorized)
  pure (s₃.emit (.emergencySweepExecuted admin asset recipient amount reasonCode s.sequence))

/-- `sweep_token`. -/
def sweepToken (asset recipient : Address) (amount : Int) (reasonCode : Nat) : Result State := do
  let _ ← requireTreasuryAdmin env s
  sweepTokenInner env s asset recipient amount reasonCode

/-- `drain`, in the default token. -/
def drain (recipient : Address) (amount : Int) : Result State := do
  let admin ← requireTreasuryAdmin env s
  ensure (0 < amount) (.admin .invalidDrainAmount)
  let token ← s.getToken
  let s₁ ← s.tokenTransfer env token env.contract recipient amount
  pure (s₁.emit (.treasuryDrained admin recipient amount))

/-- The write and the event of a treasury change. -/
def State.updateTreasury (newTreasury : Address) : State :=
  (s.set .treasury newTreasury).emit (.treasuryUpdated (s.getTreasury env) newTreasury)

/-- `set_treasury`. -/
def setTreasury (newTreasury : Address) : Result State := do
  requireNonZeroAddr newTreasury
  let _ ← requireAdmin env s
  let s₁ ← checkAndUpdateGovCooldown s
  pure (s₁.updateTreasury env newTreasury)

end Sweeps

/-! ## Two-step admin actions -/

section AdminActions

variable (env : Env) (s : State)

/-- `check_and_clear_expired_admin_action`. -/
def State.checkAndClearExpiredAdminAction : State :=
  match s.get .pendingAdminAction with
  | none => s
  | some pending =>
    if pending.expiryLedger < s.sequence then
      (s.remove .pendingAdminAction).emit (.adminActionExpired pending.proposer
        (s.sequence - s.getAdminActionWindowLedgers) pending.expiryLedger pending.action)
    else s

/-- `propose_admin_action`. -/
def proposeAdminAction (action : AdminAction) : Result State := do
  let proposer ← requireAdmin env s
  let s₁ := s.checkAndClearExpiredAdminAction
  ensure ((s₁.get .pendingAdminAction).isNone = true) (.admin .noPendingAdminAction)
  let expiry := saturatingAdd32 s.sequence s₁.getAdminActionWindowLedgers
  pure ((s₁.set .pendingAdminAction ⟨proposer, action, expiry⟩).emit
    (.adminActionProposed proposer s.sequence expiry action))

/-- What a confirmed action does. -/
def State.executeAdminAction : AdminAction → Result State
  | .treasuryRotation newTreasury => .ok (s.updateTreasury env newTreasury)
  | .tokenSweep asset recipient amount reasonCode =>
    sweepTokenInner env s asset recipient amount reasonCode

/-- `confirm_admin_action`: any address other than the proposer can confirm. -/
def confirmAdminAction (confirmer : Address) : Result State := do
  requireAuth env confirmer
  let pending ← okOr (s.get .pendingAdminAction) (.admin .noPendingAdminAction)
  ensure (s.sequence ≤ pending.expiryLedger) (.admin .adminActionExpired)
  ensure (confirmer ≠ pending.proposer) (.admin .cannotSelfConfirm)
  let s₁ ← s.executeAdminAction env pending.action
  pure ((s₁.remove .pendingAdminAction).emit
    (.adminActionConfirmed pending.proposer confirmer pending.action))

/-- `cancel_admin_action`. -/
def cancelAdminAction : Result State := do
  let proposer ← requireAdmin env s
  let pending ← okOr (s.get .pendingAdminAction) (.admin .noPendingAdminAction)
  ensure (pending.proposer = proposer) (.admin .unauthorized)
  pure (s.remove .pendingAdminAction)

end AdminActions

end NiffyInsure
