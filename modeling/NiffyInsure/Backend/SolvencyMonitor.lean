import Mathlib.Algebra.Field.Rat
import Mathlib.Data.Rat.Lemmas
import NiffyInsure.Lib.JsString
import NiffyInsure.Obligations
import NiffyInsure.Backend.Database

/-!
# The solvency monitor

`runSolvencyCheck` compares the treasury's balance with the threshold and the amounts of the claims
that the table has as `APPROVED`.  `process_claim` also accepts the claims that were approved on
appeal, which the table has as `APPEAL_APPROVED`, and pays a claim without its deductible.

* `status_eq_ok`: when the monitor reports `ok`.
* `alarm_sound_iff`: over a table that mirrors the contract, what it reports as `ok` covers what is
  unpaid, whatever the balance, exactly if what is settled on the approved claims covers what is
  unpaid on those approved on appeal.
-/

namespace NiffyInsure.Backend.SolvencyMonitor

/-! ## The monitor -/

/-- The settings; the threshold is a number. -/
structure Config where
  SOLVENCY_MONITORING_ENABLED : String
  SOLVENCY_BUFFER_THRESHOLD_STROOPS : Int
  CONTRACT_ID : String
  SOLVENCY_SIMULATION_SOURCE_ACCOUNT : String
  SOLVENCY_TENANT_ID : String
  deriving DecidableEq

/-- What the monitor reads of a row of `claims`. -/
structure Row where
  id : Nat
  amount : String
  status : Backend.ClaimStatus
  tenantId : Option String
  deriving DecidableEq

inductive SnapshotStatus where
  | ok
  | degraded
  | unknown
  deriving DecidableEq

structure Snapshot where
  status : SnapshotStatus
  thresholdStroops : Int
  contractBalanceStroops : Option Int
  outstandingApprovedStroops : Option Int
  bufferStroops : Option Int
  alertEmitted : Bool
  rpcError : Option String
  skipReason : Option String
  deriving DecidableEq

/-- The number that digits are written for. -/
def digits (text : List Char) : Option Nat :=
  if text ≠ [] ∧ text.all Char.isDigit = true then
    some (text.foldl (fun n c => n * 10 + (c.toNat - 48)) 0)
  else none

/-- `CAST(amount AS DECIMAL)`. -/
def castDecimal (amount : String) : Option ℚ := do
  let (sign, body) : ℚ × List Char := match amount.toList with
    | '-' :: body => (-1, body)
    | body => (1, body)
  match body.splitOn '.' with
  | [whole] => do
    let n ← digits whole
    pure (sign * n)
  | [whole, fraction] => do
    let n ← digits whole
    let f ← digits fraction
    pure (sign * (n + f / 10 ^ fraction.length))
  | _ => none

/-- `raw.split('.')[0]`: the number without what stands behind the point. -/
def truncate (sum : ℚ) : Int := sum.num.tdiv sum.den

/-- The rows that the query selects. -/
def selected (tenantFilter : String) (rows : List Row) : List Row :=
  rows.filter fun row =>
    row.status = .approved && (tenantFilter = "" || row.tenantId = some tenantFilter)

/-- A text that is no number makes the query fail. -/
def sumApprovedUnpaidClaims (cfg : Config) (rows : List Row) : Except String Int :=
  match (selected (Js.trimString cfg.SOLVENCY_TENANT_ID) rows).mapM
      fun row => castDecimal row.amount with
  | some amounts => pure (truncate amounts.sum)
  | none => throw "invalid input syntax for type numeric"

/-- A snapshot of a check that comes to no result. -/
def Snapshot.unknown (cfg : Config) : Snapshot where
  status := .unknown
  thresholdStroops := cfg.SOLVENCY_BUFFER_THRESHOLD_STROOPS
  contractBalanceStroops := none
  outstandingApprovedStroops := none
  bufferStroops := none
  alertEmitted := false
  rpcError := none
  skipReason := none

/-- Why a check is skipped. -/
def skipReason (cfg : Config) : Option String :=
  if cfg.SOLVENCY_MONITORING_ENABLED ≠ "true" ∧ cfg.SOLVENCY_MONITORING_ENABLED ≠ "1" then
    some "SOLVENCY_MONITORING_ENABLED=false"
  else if cfg.CONTRACT_ID = "" then some "CONTRACT_ID not configured"
  else if Js.trimString cfg.SOLVENCY_SIMULATION_SOURCE_ACCOUNT = "" then
    some "SOLVENCY_SIMULATION_SOURCE_ACCOUNT not set"
  else none

/-- `runSolvencyCheck`, over the rows and what the simulation of `get_treasury_balance` answers. -/
def runSolvencyCheck (cfg : Config) (rows : List Row) (simulated : Except String Int) : Snapshot :=
  let threshold := cfg.SOLVENCY_BUFFER_THRESHOLD_STROOPS
  match skipReason cfg with
  | some reason => { Snapshot.unknown cfg with skipReason := some reason }
  | none =>
    match sumApprovedUnpaidClaims cfg rows with
    | .error msg => { Snapshot.unknown cfg with rpcError := some ("db_aggregate_failed: " ++ msg) }
    | .ok outstanding =>
      match simulated with
      | .error msg =>
        { Snapshot.unknown cfg with
          outstandingApprovedStroops := some outstanding
          rpcError := some msg }
      | .ok balance =>
        let buffer := balance - outstanding
        let below := decide (buffer < threshold)
        { status := if below then .degraded else .ok
          thresholdStroops := threshold
          contractBalanceStroops := some balance
          outstandingApprovedStroops := some outstanding
          bufferStroops := some buffer
          alertEmitted := below
          rpcError := none
          skipReason := none }

/-! ## What is to be paid -/

/-- The claims with the status. -/
def withStatus (s : State) (status : NiffyInsure.ClaimStatus) : List Claim :=
  s.claims.filter (·.status = status)

/-- What is unpaid on the claims that `process_claim` would still accept. -/
def payable (s : State) : Int :=
  ((s.claims.filter fun c => c.status = .approved ∨ c.status = .appealApproved).map
    Claim.unpaid).sum

/-- The amounts of the approved claims. -/
def approvedAmounts (s : State) : Int := ((withStatus s .approved).map Claim.amount).sum

/-- What is settled on the approved claims: their deductibles and what was paid in installments. -/
def settled (s : State) : Int :=
  ((withStatus s .approved).map fun c => c.amount - c.unpaid).sum

/-- What is unpaid on the claims that were approved on appeal. -/
def appealUnpaid (s : State) : Int := ((withStatus s .appealApproved).map Claim.unpaid).sum

/-! ## The mirror -/

/-- The status that the table has for a claim, where it has one. -/
def mirrored : NiffyInsure.ClaimStatus → Option Backend.ClaimStatus
  | .processing | .pending => some .pending
  | .approved => some .approved
  | .paid => some .paid
  | .rejected => some .rejected
  | .underAppeal => some .underAppeal
  | .appealApproved => some .appealApproved
  | .appealRejected => some .appealRejected
  | .payoutTimeout | .withdrawn | .disputed | .appealed | .payoutFailed => none

/-- The row shows the claim.  A claim for whose status the table has no word is not shown as one
that is to be paid. -/
structure Shows (claim : Claim) (row : Row) : Prop where
  id : row.id = claim.claimId
  amount : castDecimal row.amount = some (claim.amount : ℚ)
  status : ∀ st ∈ mirrored claim.status, row.status = st
  unnamed : mirrored claim.status = none → row.status ≠ .approved ∧ row.status ≠ .appealApproved

/-- One row for each claim, in some order. -/
def Mirrors (s : State) (rows : List Row) : Prop :=
  ∃ shown : List Row, shown.Perm rows ∧ List.Forall₂ Shows s.claims shown

/-- What the monitor reports as `ok` has enough for the threshold and what is unpaid. -/
def AlarmSound (s : State) (cfg : Config) (rows : List Row)
    (simulated : Except String Int) : Prop :=
  (runSolvencyCheck cfg rows simulated).status = .ok →
    ∃ balance ∈ (runSolvencyCheck cfg rows simulated).contractBalanceStroops,
      cfg.SOLVENCY_BUFFER_THRESHOLD_STROOPS + payable s ≤ balance

/-- The check comes to a result, for the claims of all tenants. -/
structure Config.Runs (cfg : Config) : Prop where
  skip : skipReason cfg = none
  tenant : Js.trimString cfg.SOLVENCY_TENANT_ID = ""

instance (cfg : Config) : Decidable cfg.Runs :=
  decidable_of_iff (skipReason cfg = none ∧ Js.trimString cfg.SOLVENCY_TENANT_ID = "")
    ⟨fun h => ⟨h.1, h.2⟩, fun h => ⟨h.skip, h.tenant⟩⟩

/-! ## What the monitor adds up -/

variable {s : State} {cfg : Config} {rows shown : List Row} {claims : List Claim} {balance : Int}

theorem truncate_intCast (n : Int) : truncate (n : ℚ) = n := by
  rw [truncate, Rat.num_intCast, Rat.den_intCast]
  exact Int.tdiv_one n

theorem Shows.approved_iff {claim : Claim} {row : Row} (h : Shows claim row) :
    row.status = .approved ↔ claim.status = .approved := by
  cases hstatus : mirrored claim.status with
  | none =>
    refine iff_of_false (h.unnamed hstatus).1 fun happroved => ?_
    rw [happroved] at hstatus
    cases hstatus
  | some st =>
    rw [h.status st hstatus]
    cases hclaim : claim.status <;> rw [hclaim] at hstatus <;> cases hstatus <;> simp

theorem selected_all (rows : List Row) : selected "" rows = rows.filter (·.status = .approved) := by
  refine List.filter_congr fun row _ => ?_
  rw [show decide ("" = "") = true from rfl, Bool.true_or, Bool.and_true]

/-- The amount in a row. -/
def Row.value (row : Row) : ℚ := (castDecimal row.amount).getD 0

theorem cast_shown (h : List.Forall₂ Shows claims shown) :
    ∀ row ∈ shown, castDecimal row.amount = some row.value := by
  induction h with
  | nil => exact nofun
  | cons hrow _ ih =>
    refine List.forall_mem_cons.mpr ⟨?_, ih⟩
    rw [Row.value, hrow.amount]
    rfl

theorem sum_shown (h : List.Forall₂ Shows claims shown) :
    (shown.map Row.value).sum = (((claims.map Claim.amount).sum : Int) : ℚ) := by
  induction h with
  | nil => rfl
  | cons hrow _ ih =>
    rw [List.map_cons, List.map_cons, List.sum_cons, List.sum_cons, ih, Row.value, hrow.amount,
      Option.getD_some, Int.cast_add]

theorem shown_approved (h : List.Forall₂ Shows claims shown) :
    List.Forall₂ Shows (claims.filter (·.status = .approved))
      (shown.filter (·.status = .approved)) := by
  refine List.rel_filter (fun claim row hrow => ?_) h
  simpa using hrow.approved_iff.symm

theorem mapM_eq_some {α β : Type} {f : α → Option β} {g : α → β} {l : List α}
    (h : ∀ a ∈ l, f a = some (g a)) : l.mapM f = some (l.map g) := by
  induction l with
  | nil => rfl
  | cons a l ih =>
    rw [List.forall_mem_cons] at h
    rw [List.mapM_cons, h.1, ih h.2]
    rfl

/-- **What the monitor adds up** are the amounts of the approved claims. -/
theorem sum_mirrored (h : Mirrors s rows) (hcfg : cfg.Runs) :
    sumApprovedUnpaidClaims cfg rows = .ok (approvedAmounts s) := by
  obtain ⟨shown, hperm, hshown⟩ := h
  have happroved := shown_approved hshown
  have hrows : (shown.filter (·.status = .approved)).Perm (rows.filter (·.status = .approved)) :=
    hperm.filter _
  have hcast : ∀ row ∈ rows.filter (·.status = .approved),
      castDecimal row.amount = some row.value := fun row hrow =>
    cast_shown happroved row (hrows.mem_iff.mpr hrow)
  have hsum : ((rows.filter (·.status = .approved)).map Row.value).sum =
      (approvedAmounts s : ℚ) := by
    rw [← (hrows.map Row.value).sum_eq, sum_shown happroved]
    rfl
  rw [sumApprovedUnpaidClaims, hcfg.tenant, selected_all, mapM_eq_some hcast]
  show Except.ok (truncate _) = _
  rw [hsum, truncate_intCast]

/-! ## When the alarm is sound -/

theorem payable_eq (s : State) : payable s = approvedAmounts s - settled s + appealUnpaid s := by
  unfold payable approvedAmounts settled appealUnpaid withStatus
  induction s.claims with
  | nil => rfl
  | cons claim claims ih =>
    simp only [List.filter_cons]
    by_cases happroved : claim.status = .approved
    · simp only [happroved, true_or, decide_true, if_true, List.map_cons, List.sum_cons]
      rw [if_neg (by decide)]
      omega
    · by_cases happeal : claim.status = .appealApproved
      · simp only [happeal, or_true, decide_true, if_true, List.map_cons, List.sum_cons]
        rw [if_neg (by decide)]
        omega
      · simp only [happroved, happeal, or_self, decide_false]
        exact ih

/-- **When the monitor reports `ok`** over a table that mirrors the contract. -/
theorem status_eq_ok (h : Mirrors s rows) (hcfg : cfg.Runs) :
    (runSolvencyCheck cfg rows (.ok balance)).status = .ok ↔
      cfg.SOLVENCY_BUFFER_THRESHOLD_STROOPS + approvedAmounts s ≤ balance := by
  simp only [runSolvencyCheck, hcfg.skip, sum_mirrored h hcfg]
  split
  · rename_i hbelow
    refine iff_of_false nofun ?_
    have hlt := of_decide_eq_true hbelow
    omega
  · rename_i hbelow
    refine iff_of_true rfl ?_
    have hge := of_decide_eq_false (Bool.not_eq_true _ ▸ hbelow)
    omega

theorem alarmSound_iff (h : Mirrors s rows) (hcfg : cfg.Runs) :
    AlarmSound s cfg rows (.ok balance) ↔
      (cfg.SOLVENCY_BUFFER_THRESHOLD_STROOPS + approvedAmounts s ≤ balance →
        cfg.SOLVENCY_BUFFER_THRESHOLD_STROOPS + payable s ≤ balance) := by
  have hread (hok : (runSolvencyCheck cfg rows (.ok balance)).status = .ok) :
      (runSolvencyCheck cfg rows (.ok balance)).contractBalanceStroops = some balance := by
    simp only [runSolvencyCheck, hcfg.skip, sum_mirrored h hcfg]
  unfold AlarmSound
  rw [status_eq_ok h hcfg]
  refine imp_congr_right fun hle => ?_
  rw [hread ((status_eq_ok h hcfg).mpr hle)]
  simp

/-- **When the alarm is sound**, whatever the balance: exactly if what is settled on the approved
claims covers what is unpaid on those approved on appeal. -/
theorem alarm_sound_iff (h : Mirrors s rows) (hcfg : cfg.Runs) :
    (∀ balance, AlarmSound s cfg rows (.ok balance)) ↔ appealUnpaid s ≤ settled s := by
  have hpayable := payable_eq s
  simp only [alarmSound_iff h hcfg]
  constructor
  · intro hall
    -- the least balance that is reported as `ok`
    have hleast := hall (cfg.SOLVENCY_BUFFER_THRESHOLD_STROOPS + approvedAmounts s) (Int.le_refl _)
    omega
  · intro hcovered balance hle
    omega

/-! ## A claim that is approved on appeal -/

def demoConfig : Config := ⟨"true", 100, "CDEMO", "GDEMO", ""⟩

/-- What the claims of a state show. -/
def summary (s : State) : List (Nat × Int × NiffyInsure.ClaimStatus × Int) :=
  s.claims.map fun c => (c.claimId, c.amount, c.status, c.unpaid)

theorem mirrors_of_summary {id : Nat} {n unpaid : Int} {status : NiffyInsure.ClaimStatus}
    {row : Row} (h : summary s = [(id, n, status, unpaid)]) (hid : row.id = id)
    (hamount : castDecimal row.amount = some (n : ℚ))
    (hstatus : mirrored status = some row.status) :
    Mirrors s [row] := by
  refine ⟨[row], .refl _, ?_⟩
  unfold summary at h
  obtain ⟨claim, hclaims, hclaim⟩ := List.map_eq_singleton_iff.mp h
  rw [hclaims]
  simp only [Prod.mk.injEq] at hclaim
  obtain ⟨rfl, rfl, rfl, -⟩ := hclaim
  refine .cons ⟨hid, hamount, fun st hst => ?_, fun hnone => ?_⟩ .nil
  · rw [hstatus] at hst
    exact Option.some_inj.mp hst
  · rw [hstatus] at hnone
    cases hnone

/-- An approved claim of 1000: a balance of 1100 is reported as `ok`, and covers it and the
threshold. -/
theorem alarm_sound_iff_approved : ∃ s rows, (contract demoHost).Reach Machine.always s ∧
    Mirrors s rows ∧ (runSolvencyCheck demoConfig rows (.ok 1100)).status = .ok ∧
    AlarmSound s demoConfig rows (.ok 1100) := by
  obtain ⟨s, hreach, hval⟩ := exists_of_follow always_of_noCheck (deployed 0) endedApprovedTrace
    (f := fun s => (summary s, appealUnpaid s, settled s))
    (a := ([(1, 1000, .approved, 1000)], 0, 0)) (fresh_deployed (by decide))
    (by simp [endedApprovedTrace, terminateAll, demoSetup, demoInit, demoBind, demoFile])
    (by decide +kernel)
  simp only [Prod.mk.injEq] at hval
  obtain ⟨hsummary, happeal, hsettled⟩ := hval
  have hmirrors : Mirrors s [⟨1, "1000", .approved, none⟩] :=
    mirrors_of_summary hsummary rfl (by decide +kernel) rfl
  have hsound := (alarm_sound_iff hmirrors (by decide : demoConfig.Runs)).mpr
    (by rw [happeal, hsettled])
  exact ⟨s, _, hreach, hmirrors, by decide +kernel, hsound 1100⟩

/-- A claim of 1000 that was approved on appeal: a balance of 100 is reported as `ok`. -/
theorem alarm_misses_appeal : ¬ ∀ (host : Host) (s : State) (rows : List Row) (cfg : Config)
    (balance : Int), (contract host).Reach Machine.always s → Mirrors s rows → cfg.Runs →
      AlarmSound s cfg rows (.ok balance) := by
  intro h
  obtain ⟨s, hreach, hval⟩ := exists_of_follow always_of_noCheck (deployed 0) endedAppealTrace
    (f := fun s => (summary s, payable s))
    (a := ([(1, 1000, .appealApproved, 1000)], 1000)) (fresh_deployed (by decide))
    (by simp [endedAppealTrace, terminateAll, demoSetup, demoInit, demoBind, demoFile])
    (by decide +kernel)
  simp only [Prod.mk.injEq] at hval
  obtain ⟨hsummary, hpayable⟩ := hval
  have hmirrors : Mirrors s [⟨1, "1000", .appealApproved, none⟩] :=
    mirrors_of_summary hsummary rfl (by decide +kernel) rfl
  obtain ⟨balance, hbalance, hle⟩ := h demoHost s _ demoConfig 100 hreach hmirrors (by decide)
    (by decide +kernel)
  have hread : balance = 100 := by
    have hval : (runSolvencyCheck demoConfig [⟨1, "1000", .appealApproved, none⟩]
        (.ok 100)).contractBalanceStroops = some 100 := by decide +kernel
    rw [hval] at hbalance
    exact (Option.some_inj.mp hbalance).symm
  rw [hread, hpayable] at hle
  exact absurd hle (by decide)

end NiffyInsure.Backend.SolvencyMonitor
