import NiffyInsure.Contract
import NiffyInsure.Lib.History

/-!
# Following a list of labels

A list of calls and ledger closings can be executed, with a check on every step;
`steps_of_follow` says that where it leads is reached by the machine in a run that meets what
the check stands for.  `deployed` is a concrete deployment to run it on: one asset, accounts
with balances and allowances, and an invocation that every account has authorised.
-/

namespace NiffyInsure

/-- Execute one label.  Steps of the token contracts have no execution. -/
def State.take (s : State) : Label → Result State
  | .call env c => c.exec env s
  | .closeLedger n =>
    if s.sequence ≤ n ∧ n ≤ U32_MAX then .ok { s with sequence := n } else .error .trap
  | .tokens .. => .error .trap

/-- Execute a list of labels that pass the check. -/
def State.follow (check : State → Label → Bool) : State → List Label → Result State
  | s, [] => .ok s
  | s, l :: rest => do
    ensure (check s l = true) .trap
    let s' ← s.take l
    s'.follow check rest

/-- The label is a call on `host`, or no call. -/
def Label.On (host : Host) : Label → Prop
  | .call env _ => env.toHost = host
  | _ => True

/-- The account authorised the call. -/
def Label.SignedBy (x : Address) : Label → Prop
  | .call env _ => env.auths x = true
  | _ => False

instance (x : Address) : DecidablePred (Label.SignedBy x)
  | .call env _ => inferInstanceAs (Decidable (env.auths x = true))
  | .closeLedger _ => isFalse id
  | .tokens .. => isFalse id

theorem step_of_take {host : Host} {s s' : State} {l : Label} (hon : l.On host)
    (h : s.take l = .ok s') : (contract host).step s l s' := by
  cases l with
  | call env c => exact ⟨hon, h⟩
  | closeLedger n =>
    dsimp only [State.take] at h
    split at h
    · rename_i hn
      cases h
      exact ⟨hn.1, hn.2, rfl⟩
    · cases h
  | tokens b a => cases h

/-- **What a list of labels executes to is where a run leads**, in which every step meets the
condition that was checked. -/
theorem steps_of_follow {host : Host} {check : State → Label → Bool} {ok : State → Label → Prop}
    (hcheck : ∀ s l, check s l = true → ok s l) {t : State} :
    ∀ (labels : List Label) (s : State), (∀ l ∈ labels, l.On host) →
      s.follow check labels = .ok t → (contract host).Steps ok s t := by
  intro labels
  induction labels with
  | nil =>
    intro s _ h
    cases h
    exact Relation.ReflTransGen.refl
  | cons l rest ih =>
    intro s hon h
    simp only [State.follow, bind_eq_ok, ensure_eq_ok] at h
    obtain ⟨-, hl, s₁, h₁, h₂⟩ := h
    have hrest := ih s₁ (fun l' hl' => hon l' (by simp [hl'])) h₂
    exact Relation.ReflTransGen.head ⟨l, hcheck s l hl, step_of_take (hon l (by simp)) h₁⟩ hrest

/-- What a list of labels executes to is reached by the machine. -/
theorem reach_of_follow {host : Host} {check : State → Label → Bool} {ok : State → Label → Prop}
    (hcheck : ∀ s l, check s l = true → ok s l) {t : State} (labels : List Label) (s : State)
    (hs : (contract host).Reach ok s) (hon : ∀ l ∈ labels, l.On host)
    (h : s.follow check labels = .ok t) : (contract host).Reach ok t :=
  hs.trans (steps_of_follow hcheck labels s hon h)

theorem exists_of_map_eq_ok {α : Type} {r : Result State} {f : State → α} {a : α}
    (h : r.map f = .ok a) : ∃ s, r = .ok s ∧ f s = a := by
  cases r with
  | error e => cases h
  | ok s =>
    refine ⟨s, rfl, ?_⟩
    simpa [Except.map] using h

/-- The fault that an execution ends with. -/
def Result.fault {α : Type} : Result α → Option Fault
  | .ok _ => none
  | .error e => some e

theorem eq_error_of_fault {α : Type} {r : Result α} {e : Fault} (h : r.fault = some e) :
    r = .error e := by
  cases r with
  | ok a => cases h
  | error e' =>
    cases h
    rfl

theorem get_eq_none_of_keys {s : State} {p : DataKey → Bool} {k : DataKey}
    (h : s.storage.keys.all p = true) (hk : p k = false) : s.get k = none := by
  refine AList.lookup_eq_none.mpr fun hmem => ?_
  have htrue := List.all_eq_true.mp h k (AList.mem_keys.mp hmem)
  rw [hk] at htrue
  cases htrue

/-! ## A concrete deployment -/

/-- The contract's address in the deployment. -/
def contractAddress : Address := 100

/-- The asset of the deployment. -/
def assetAddress : Address := 50

/-- The admin of the deployment. -/
def adminAddress : Address := 9

/-- The XDR of an account's address. -/
def demoXdr (a : Address) : List UInt8 :=
  [0, 0, 0, 18, 0, 0, 0, 0, 0, 0, 0, 0] ++ List.replicate 31 0 ++ [UInt8.ofNat a]

/-- The salt of the one ballot that is committed in the deployment. -/
def demoSalt : Bytes32 := Vector.replicate 32 7

/-- The SHA-256 of the bytes that commit account 1 to approve with this salt. -/
def demoCommitment : Bytes32 :=
  #v[243, 79, 93, 66, 66, 237, 148, 191, 253, 254, 139, 215, 194, 112, 255, 62, 153, 14, 53, 208,
    196, 95, 65, 47, 239, 21, 70, 174, 210, 97, 2, 245]

/-- The host of the deployment.  The premium is split by basis points, and the hash is given
on the one input that is used. -/
def demoHost : Host where
  contract := contractAddress
  sha256 := fun bytes =>
    if bytes = 0 :: (demoSalt.toList ++ demoXdr 1) then demoCommitment else Vector.replicate 32 0
  toXdr := demoXdr
  splitPremium := fun premium bps => some (premium - premium * bps / 10000, premium * bps / 10000)

/-- An invocation that every account has authorised.  No account is a contract, and there
is no external calculator. -/
def demoEnv : Env where
  toHost := demoHost
  auths := fun a => a != contractAddress
  executable := fun _ => false
  calcAbiVersion := fun _ => none
  calcCompute := fun _ _ _ => .error .callFailed
  tokenDecimals := fun _ => some 7
  noSelfAuth := rfl

/-- An invocation that only the accounts in a list have authorised. -/
def signedBy (signers : List Address) : Env :=
  { demoEnv with
    auths := fun a => signers.contains a && a != contractAddress
    noSelfAuth := by simp [demoEnv, demoHost] }

@[simp] theorem toHost_signedBy (signers : List Address) : (signedBy signers).toHost = demoHost :=
  rfl

/-- A call of the deployment. -/
def demoCall (c : Call) : Label := .call demoEnv c

@[simp] theorem on_demoCall (c : Call) : (demoCall c).On demoHost := rfl

/-- The deployment before its first call, with the given cash of the contract: the accounts
have balances and have approved the contract. -/
def deployed (cash : Int) : State where
  storage := ∅
  balance := fun _ a => if a = contractAddress then cash else 1000000000
  allowance := fun _ o x => if x = contractAddress ∧ o ≠ contractAddress then 1000000000 else 0
  sequence := 1000
  events := []
  payouts := []

@[simp] theorem on_closeLedger (n : Nat) : (Label.closeLedger n).On demoHost := trivial

theorem fresh_deployed {cash : Int} (h : 0 ≤ cash) : (deployed cash).Fresh demoHost where
  storage := rfl
  payouts := rfl
  balance := fun _ => by simpa [deployed, demoHost] using h
  sequence := by simp [deployed, U32_MAX]

/-- The terms that the policies of the deployment are bound to. -/
def demoTerms : Bytes32 := Vector.replicate 32 1

/-- `holder` binds a policy. -/
def demoBind (holder : Address) (policyType : PolicyType) (coverage : Int) : Label :=
  demoCall (.policy (.initiatePolicy {
    holder := holder
    policyType := policyType
    region := .low
    ageBand := .adult
    coverageType := .basic
    safetyScore := 50
    baseAmount := coverage
    asset := assetAddress
    options := {
      beneficiary := none
      deductible := none
      expectedNonce := none
      metadataUri := ipfsScheme
      regionCode := none
      termsHash := demoTerms } }))

/-- The contract is initialised. -/
def demoInit : Label := demoCall (.setting (.initializeContract adminAddress assetAddress))

/-- The contract is initialised, and the accounts 1, 2 and 3 have a policy each. -/
def demoSetup : List Label :=
  [demoInit, demoBind 1 .auto 10000000, demoBind 2 .auto 10000000, demoBind 3 .auto 10000000]

/-- `holder` files a claim on its policy. -/
def demoFile (holder : Address) (policyId : Nat) (amount : Int) : Label :=
  demoCall (.claim (.fileClaim holder policyId amount [] [] none))

/-- Execute `labels`, and read `f` off the state at the end. -/
theorem exists_of_follow {α : Type} {f : State → α} {a : α}
    {check : State → Label → Bool} {ok : State → Label → Prop}
    (hcheck : ∀ s l, check s l = true → ok s l) (s₀ : State) (labels : List Label)
    (hfresh : s₀.Fresh demoHost)
    (hon : ∀ l ∈ labels, l.On demoHost) (h : (s₀.follow check labels).map f = .ok a) :
    ∃ s, (contract demoHost).Reach ok s ∧ f s = a := by
  obtain ⟨s, hs, hval⟩ := exists_of_map_eq_ok h
  exact ⟨s, reach_of_follow hcheck labels s₀ (.of_init hfresh) hon hs, hval⟩

theorem exists_logged_of_follow {α : Type} {f : State → α} {a : α}
    {check : State → Label → Bool} {ok : State → Label → Prop}
    (hcheck : ∀ s l, check s l = true → ok s l) (s₀ : State) (labels : List Label)
    (hfresh : s₀.Fresh demoHost) (hlog : s₀.events = [])
    (hon : ∀ l ∈ labels, l.On demoHost) (h : (s₀.follow check labels).map f = .ok a) :
    ∃ s, (loggedContract demoHost).Reach ok s ∧ f s = a := by
  obtain ⟨s, hs, hval⟩ := exists_of_map_eq_ok h
  exact ⟨s, ⟨s₀, ⟨hfresh, hlog⟩, steps_of_follow hcheck labels s₀ hon hs⟩, hval⟩

/-- Execute `labels` from `s₀`, and read `f` off the state at the end of the run. -/
theorem exists_steps_of_follow {α : Type} {f : State → α} {a : α}
    {check : State → Label → Bool} {ok : State → Label → Prop}
    (hcheck : ∀ s l, check s l = true → ok s l) (s₀ : State) (labels : List Label)
    (hon : ∀ l ∈ labels, l.On demoHost)
    (h : (s₀.follow check labels).map f = .ok a) :
    ∃ s, (contract demoHost).Steps ok s₀ s ∧ f s = a := by
  obtain ⟨s, hs, hval⟩ := exists_of_map_eq_ok h
  exact ⟨s, steps_of_follow hcheck labels s₀ hon hs, hval⟩

/-- Execute `labels` and then the call `c`, and read `f` off the states before and after
the call. -/
def State.followCall {α : Type} (s₀ : State) (check : State → Label → Bool) (labels : List Label)
    (c : Call) (f : State → State → α) : Result α := do
  let s ← s₀.follow check labels
  let s' ← c.exec demoEnv s
  pure (f s s')

theorem exists_steps_of_followCall {α : Type} {c : Call} {f : State → State → α} {a : α}
    {check : State → Label → Bool} {ok : State → Label → Prop}
    (hcheck : ∀ s l, check s l = true → ok s l) (s₀ : State) (labels : List Label)
    (hon : ∀ l ∈ labels, l.On demoHost)
    (h : s₀.followCall check labels c f = .ok a) :
    ∃ s s', (contract demoHost).Steps ok s₀ s ∧ (contract demoHost).step s (demoCall c) s' ∧
      f s s' = a := by
  simp only [State.followCall, bind_eq_ok, pure_eq_ok] at h
  obtain ⟨s, hs, s', hs', hf⟩ := h
  exact ⟨s, s', steps_of_follow hcheck labels s₀ hon hs, ⟨rfl, hs'⟩, hf⟩

theorem exists_of_followCall {α : Type} {c : Call} {f : State → State → α} {a : α}
    {check : State → Label → Bool} {ok : State → Label → Prop}
    (hcheck : ∀ s l, check s l = true → ok s l) (s₀ : State) (labels : List Label)
    (hfresh : s₀.Fresh demoHost)
    (hon : ∀ l ∈ labels, l.On demoHost) (h : s₀.followCall check labels c f = .ok a) :
    ∃ s s', (contract demoHost).Reach ok s ∧ (contract demoHost).step s (demoCall c) s' ∧
      f s s' = a := by
  obtain ⟨s, s', hsteps, hstep, hf⟩ := exists_steps_of_followCall hcheck s₀ labels hon h
  exact ⟨s, s', ⟨s₀, hfresh, hsteps⟩, hstep, hf⟩

theorem exists_step_of_isOk {s : State} {c : Call} (h : (c.exec demoEnv s).isOk = true) :
    ∃ s', (contract demoHost).step s (demoCall c) s' := by
  cases hexec : c.exec demoEnv s with
  | error e =>
    rw [hexec] at h
    cases h
  | ok s' => exact ⟨s', rfl, hexec⟩

/-! ## Runs with a history -/

section History

variable {γ : Type} (note : State → Label → γ → γ)

/-- Execute a list of labels that pass the check, and note them down. -/
def State.followWith (check : State → Label → Bool) : State × γ → List Label → Result (State × γ)
  | p, [] => .ok p
  | p, l :: rest => do
    ensure (check p.1 l = true) .trap
    let s' ← p.1.take l
    State.followWith check (s', note p.1 l p.2) rest

variable {note}

theorem reach_of_followWith {host : Host} {g₀ : γ} {check : State → Label → Bool}
    {ok : State → Label → Prop} (hcheck : ∀ s l, check s l = true → ok s l) {q : State × γ} :
    ∀ (labels : List Label) (p : State × γ),
      ((contract host).withHistory g₀ note).Reach (fun p l => ok p.1 l) p →
      (∀ l ∈ labels, l.On host) → State.followWith note check p labels = .ok q →
      ((contract host).withHistory g₀ note).Reach (fun p l => ok p.1 l) q := by
  intro labels
  induction labels with
  | nil =>
    intro p hp _ h
    cases h
    exact hp
  | cons l rest ih =>
    intro p hp hon h
    simp only [State.followWith, bind_eq_ok, ensure_eq_ok] at h
    obtain ⟨-, hl, s₁, h₁, h₂⟩ := h
    have hreach := hp.tail (hcheck p.1 l hl) (t := (s₁, note p.1 l p.2))
      ⟨step_of_take (hon l (by simp)) h₁, rfl⟩
    exact ih _ hreach (fun l' hl' => hon l' (by simp [hl'])) h₂

/-- Execute `labels` with the history, and read `f` off the end. -/
theorem exists_of_followWith {α : Type} (note : State → Label → γ → γ) (g₀ : γ)
    {f : State × γ → α} {a : α} {check : State → Label → Bool} {ok : State → Label → Prop}
    (hcheck : ∀ s l, check s l = true → ok s l) (s₀ : State) (labels : List Label)
    (hfresh : s₀.Fresh demoHost)
    (hon : ∀ l ∈ labels, l.On demoHost)
    (h : (State.followWith note check (s₀, g₀) labels).map f = .ok a) :
    ∃ p, ((contract demoHost).withHistory g₀ note).Reach (fun p l => ok p.1 l) p ∧ f p = a := by
  cases hrun : State.followWith note check (s₀, g₀) labels with
  | error e =>
    rw [hrun] at h
    cases h
  | ok p =>
    rw [hrun] at h
    refine ⟨p, reach_of_followWith hcheck labels (s₀, g₀) (.of_init ⟨hfresh, rfl⟩) hon hrun, ?_⟩
    simpa [Except.map] using h

end History

/-! ## Runs with their trace -/

section Traced

open Machine

/-- The moves of a run of the contract. -/
abbrev Journal := List (Move State Label)

/-- Execute one label, if it can be. -/
def State.taken (s : State) (l : Label) : Option State := (s.take l).toOption

theorem step_of_taken {host : Host} {s s' : State} {l : Label} (hon : l.On host)
    (h : s.taken l = some s') : (contract host).step s l s' := by
  refine step_of_take hon ?_
  unfold State.taken at h
  cases hrun : s.take l with
  | error e =>
    rw [hrun] at h
    cases h
  | ok t =>
    rw [hrun] at h
    cases h
    rfl

/-- Execute `labels` on the deployment with their trace, and read `f` off the end. -/
theorem exists_journal {α : Type} {f : State × Journal → α} {a : α}
    {check : State → Label → Bool} {ok : State → Label → Prop}
    (hcheck : ∀ s l, check s l = true → ok s l) (s₀ : State) (labels : List Label)
    (hfresh : s₀.Fresh demoHost) (hon : ∀ l ∈ labels, l.On demoHost)
    (h : (followTraced State.taken check (s₀, []) labels).map f = some a) :
    ∃ s g, (contract demoHost).traced.Reach (fun p l => ok p.1 l) (s, g) ∧ f (s, g) = a :=
  exists_of_followTraced State.taken hcheck s₀ labels hfresh
    (fun l hl _ _ ht => step_of_taken (hon l hl) ht) h

end Traced

/-- The check that every label passes. -/
def noCheck : State → Label → Bool := fun _ _ => true

theorem always_of_noCheck (s : State) (l : Label) (_ : noCheck s l = true) :
    Machine.always s l :=
  trivial

end NiffyInsure
