import NiffyInsure.Lib.ClassIndex
import NiffyInsure.Lib.Machine
import NiffyInsure.Lib.Rollback
import NiffyInsure.Arith

/-!
# Subscriptions and the index of their owners

Subscriptions are stored under their ids, and every owner has a list of the ids of its own.
Registration drops the expired ones of its owner from both, cancellation drops one, and the others
stay where they are when they expire.  The host takes back what a call has written when it fails.

* `prune_eq`: what the loop of `register_subscription` leaves.
* `Subscriptions.Indexed`: the store and the lists agree, and no list is too long.
* `subscriptions_of_reach`: what holds in every run.
-/

namespace NiffyInsure

open Machine Rollback

def MAX_SUBSCRIPTIONS_PER_ADDRESS : Nat := 10

inductive EventType where
  | policyInitiated | claimFiled | claimFinalized | claimPaid | voteCast
  deriving DecidableEq

structure Subscription where
  id : Nat
  owner : Address
  eventTypes : List EventType
  petIds : List Nat
  expiresAt : Nat
  callback : Address
  deriving DecidableEq

/-- `SubscriptionError`, or a trap of the host. -/
inductive SubscriptionFault where
  | tooManySubscriptions | notFound | callbackNotAllowed | trap
  deriving DecidableEq

inductive SubscriptionEvent where
  | created (owner : Address) (subId : Nat) (callback : Address) (expiresAt : Nat)
  | cancelled (owner : Address) (subId : Nat)
  deriving DecidableEq

/-- The part of the contract's state that the subscriptions read and write. -/
structure Subscriptions where
  sequence : Nat
  allowedPayoutRecipient : Address → Bool
  counter : Nat
  subscription : Nat → Option Subscription
  ownerIds : Address → List Nat
  events : List SubscriptionEvent

/-- A call that writes as it goes. -/
abbrev Subscribing := EStateM SubscriptionFault Subscriptions

namespace Subscriptions

variable (s : Subscriptions)

def setSubscription (sub : Subscription) : Subscriptions :=
  { s with subscription := Function.update s.subscription sub.id (some sub) }

def removeSubscription (id : Nat) : Subscriptions :=
  { s with subscription := Function.update s.subscription id none }

def setOwnerSubscriptionIds (owner : Address) (ids : List Nat) : Subscriptions :=
  { s with ownerIds := Function.update s.ownerIds owner ids }

def emit (e : SubscriptionEvent) : Subscriptions := { s with events := s.events ++ [e] }

/-- The loop of `register_subscription` over the owner's ids, with those found active so far. -/
def prune (now : Nat) : Subscriptions → List Nat → List Nat → List Nat × Subscriptions
  | s, [], active => (active, s)
  | s, id :: ids, active =>
    match s.subscription id with
    | some sub =>
      if now ≤ sub.expiresAt then prune now s ids (active ++ [id])
      else prune now (s.removeSubscription id) ids active
    | none => prune now s ids active

/-- `get_subscription`. -/
def getSubscription (id : Nat) : Option Subscription :=
  (s.subscription id).filter fun sub => s.sequence ≤ sub.expiresAt

/-- The loop of `list_subscriptions`. -/
def listLoop (now : Nat) : List Nat → List Nat → List Nat
  | [], active => active
  | id :: ids, active =>
    match s.subscription id with
    | some sub =>
      if now ≤ sub.expiresAt then listLoop now ids (active ++ [id]) else listLoop now ids active
    | none => listLoop now ids active

/-- `list_subscriptions`. -/
def listSubscriptions (owner : Address) : List Nat :=
  s.listLoop s.sequence (s.ownerIds owner) []

end Subscriptions

/-- `next_subscription_id`. -/
def nextSubscriptionId : Subscribing Nat := do
  let s ← get
  if s.counter + 1 ≤ U64_MAX then
    set { s with counter := s.counter + 1 }
    return s.counter + 1
  else throw .trap

/-- `register_subscription`. -/
def registerSubscription (auths : Address → Bool) (owner : Address) (eventTypes : List EventType)
    (petIds : List Nat) (ttlLedgers : Nat) (callback : Address) : Subscribing Nat := do
  if auths owner = false then throw .trap
  else
    let s ← get
    if s.allowedPayoutRecipient callback = false then throw .callbackNotAllowed
    else
      let now := s.sequence
      let expiresAt := saturatingAdd32 now ttlLedgers
      let ids ← modifyGet fun s => Subscriptions.prune now s (s.ownerIds owner) []
      if MAX_SUBSCRIPTIONS_PER_ADDRESS ≤ ids.length then throw .tooManySubscriptions
      else
        let subId ← nextSubscriptionId
        modify fun s => s.setSubscription ⟨subId, owner, eventTypes, petIds, expiresAt, callback⟩
        modify fun s => s.setOwnerSubscriptionIds owner (ids ++ [subId])
        modify fun s => s.emit (.created owner subId callback expiresAt)
        return subId

/-- `cancel_subscription`. -/
def cancelSubscription (auths : Address → Bool) (owner : Address) (subId : Nat) :
    Subscribing Unit := do
  if auths owner = false then throw .trap
  else
    let s ← get
    match s.subscription subId with
    | none => throw .notFound
    | some sub =>
      if sub.owner ≠ owner then throw .notFound
      else
        modify fun s => s.removeSubscription subId
        let s ← get
        modify fun s' => s'.setOwnerSubscriptionIds owner ((s.ownerIds owner).filter (· ≠ subId))
        modify fun s => s.emit (.cancelled owner subId)

/-- What happens next: a ledger closes, an admin changes the allowlist, or one of the calls. -/
inductive SubscriptionLabel where
  | closeLedger (n : Nat)
  | setAllowedPayoutRecipient (recipient : Address) (allowed : Bool)
  | register (auths : Address → Bool) (owner : Address) (eventTypes : List EventType)
      (petIds : List Nat) (ttlLedgers : Nat) (callback : Address)
  | cancel (auths : Address → Bool) (owner : Address) (subId : Nat)

def Subscriptions.act (s : Subscriptions) : SubscriptionLabel → Option Subscriptions
  | .closeLedger n => if s.sequence ≤ n ∧ n ≤ U32_MAX then some { s with sequence := n } else none
  | .setAllowedPayoutRecipient recipient allowed =>
    some { s with
      allowedPayoutRecipient := Function.update s.allowedPayoutRecipient recipient allowed }
  | .register auths owner eventTypes petIds ttlLedgers callback =>
    some (invoke (registerSubscription auths owner eventTypes petIds ttlLedgers callback) s).2
  | .cancel auths owner subId => some (invoke (cancelSubscription auths owner subId) s).2

/-- No subscription was registered yet. -/
def Subscriptions.Empty (s : Subscriptions) : Prop :=
  s.counter = 0 ∧ (∀ id, s.subscription id = none) ∧ ∀ owner, s.ownerIds owner = []

def subscribing : Machine Subscriptions SubscriptionLabel :=
  Machine.ofAct Subscriptions.act Subscriptions.Empty

/-! ## What the calls do -/

namespace Subscriptions

variable {s s' : Subscriptions} {now : Nat}

/-- The subscription is stored and has not expired. -/
def live (s : Subscriptions) (now id : Nat) : Bool :=
  match s.subscription id with
  | some sub => decide (now ≤ sub.expiresAt)
  | none => false

theorem live_iff {id : Nat} :
    s.live now id = true ↔ ∃ sub, s.subscription id = some sub ∧ now ≤ sub.expiresAt := by
  unfold live
  cases s.subscription id with
  | none => simp
  | some sub => simp

/-- The store without those of the ids that are not live. -/
def pruned (s : Subscriptions) (now : Nat) (ids : List Nat) : Subscriptions :=
  { s with subscription := fun id =>
      if id ∈ ids ∧ s.live now id = false then none else s.subscription id }

theorem live_removeSubscription {id : Nat} (h : s.live now id = false) :
    (s.removeSubscription id).live now = s.live now := by
  funext id'
  by_cases hid : id' = id
  · subst hid
    rw [h]
    simp [live, removeSubscription]
  · simp [live, removeSubscription, hid]

/-- **The loop keeps the live ids, and takes the other ones out of the store.** -/
theorem prune_eq (ids active : List Nat) :
    prune now s ids active = (active ++ ids.filter (s.live now), s.pruned now ids) := by
  induction ids generalizing s active with
  | nil =>
    rw [prune, List.filter_nil, List.append_nil]
    simp [pruned]
  | cons id ids ih =>
    rw [prune]
    have hkeep : s.live now id = true → s.pruned now (id :: ids) = s.pruned now ids := by
      intro hlive
      unfold pruned
      congr 1
      funext id'
      by_cases hid : id' = id
      · subst hid
        simp [hlive]
      · simp [hid]
    have hdrop : s.live now id = false →
        s.pruned now (id :: ids) = (s.removeSubscription id).pruned now ids := by
      intro hdead
      unfold pruned
      rw [live_removeSubscription hdead]
      unfold removeSubscription
      congr 1
      funext id'
      by_cases hid : id' = id
      · subst hid
        simp [hdead]
      · simp [hid]
    cases hsub : s.subscription id with
    | none =>
      have hdead : s.live now id = false := by
        unfold live
        rw [hsub]
      have hsame : s.removeSubscription id = s := by
        unfold removeSubscription
        rw [← hsub, Function.update_eq_self]
      rw [List.filter_cons_of_neg (by simp [hdead]), hdrop hdead, hsame]
      exact ih active
    | some sub =>
      have hlive : s.live now id = decide (now ≤ sub.expiresAt) := by
        unfold live
        rw [hsub]
      by_cases hnow : now ≤ sub.expiresAt
      · rw [decide_eq_true hnow] at hlive
        rw [List.filter_cons_of_pos hlive, hkeep hlive]
        simp only [if_pos hnow]
        rw [ih, List.append_assoc]
        rfl
      · rw [decide_eq_false hnow] at hlive
        rw [List.filter_cons_of_neg (by simp [hlive]), hdrop hlive]
        simp only [if_neg hnow]
        rw [ih, live_removeSubscription hlive]

theorem listLoop_eq (ids active : List Nat) :
    s.listLoop now ids active = active ++ ids.filter (s.live now) := by
  induction ids generalizing active with
  | nil => rw [listLoop, List.filter_nil, List.append_nil]
  | cons id ids ih =>
    rw [listLoop]
    cases hsub : s.subscription id with
    | none =>
      rw [List.filter_cons_of_neg (by simp [live, hsub])]
      exact ih active
    | some sub =>
      by_cases hnow : now ≤ sub.expiresAt
      · rw [List.filter_cons_of_pos (by simp [live, hsub, hnow])]
        simp only [if_pos hnow]
        rw [ih, List.append_assoc]
        rfl
      · rw [List.filter_cons_of_neg (by simp [live, hsub, hnow])]
        simp only [if_neg hnow]
        exact ih active

end Subscriptions

section Calls

variable {s s' : Subscriptions} {auths : Address → Bool} {owner : Address} {subId : Nat}

theorem registerSubscription_eq_ok {eventTypes : List EventType} {petIds : List Nat}
    {ttlLedgers : Nat} {callback : Address}
    (h : (registerSubscription auths owner eventTypes petIds ttlLedgers callback).run s =
      .ok subId s') :
    auths owner = true ∧ s.allowedPayoutRecipient callback = true ∧
    ((s.ownerIds owner).filter (s.live s.sequence)).length < MAX_SUBSCRIPTIONS_PER_ADDRESS ∧
    subId = s.counter + 1 ∧
    s' = (({ s.pruned s.sequence (s.ownerIds owner) with counter := subId }.setSubscription
      ⟨subId, owner, eventTypes, petIds, saturatingAdd32 s.sequence ttlLedgers,
        callback⟩).setOwnerSubscriptionIds owner
          ((s.ownerIds owner).filter (s.live s.sequence) ++ [subId])).emit
        (.created owner subId callback (saturatingAdd32 s.sequence ttlLedgers)) := by
  simp only [registerSubscription, nextSubscriptionId, run_guard_eq_ok, run_require_eq_ok,
    run_bind_eq_ok, run_get_eq_ok, run_modify_eq_ok, run_modifyGet_eq_ok, run_pure_eq_ok,
    run_set_eq_ok] at h
  obtain ⟨hauth, _, _, ⟨rfl, rfl⟩, hallowed, ids, s₁, hprune, hlen, _, _,
    ⟨_, _, ⟨rfl, rfl⟩, -, _, _, rfl, rfl, rfl⟩, _, _, rfl, _, _, rfl, _, _, rfl, rfl, rfl⟩ := h
  rw [Subscriptions.prune_eq] at hprune
  cases hprune
  exact ⟨by simpa using hauth, by simpa using hallowed, Nat.lt_of_not_le hlen, rfl, rfl⟩

theorem cancelSubscription_eq_ok (h : (cancelSubscription auths owner subId).run s = .ok () s') :
    auths owner = true ∧ (∃ sub, s.subscription subId = some sub ∧ sub.owner = owner) ∧
    s' = ((s.removeSubscription subId).setOwnerSubscriptionIds owner
      ((s.ownerIds owner).filter (· ≠ subId))).emit (.cancelled owner subId) := by
  unfold cancelSubscription at h
  rw [run_guard_eq_ok, run_bind_eq_ok] at h
  obtain ⟨hauth, s₀, s₁, hget, h⟩ := h
  obtain ⟨rfl, rfl⟩ := run_get_eq_ok.mp hget
  cases hsub : s₁.subscription subId with
  | none =>
    rw [hsub] at h
    exact (run_throw_eq_ok.mp h).elim
  | some sub =>
    rw [hsub] at h
    simp only [run_guard_eq_ok, run_bind_eq_ok, run_get_eq_ok, run_modify_eq_ok] at h
    obtain ⟨howner, _, _, rfl, _, _, ⟨rfl, rfl⟩, _, _, rfl, rfl⟩ := h
    exact ⟨by simpa using hauth, ⟨sub, rfl, not_not.mp howner⟩, rfl⟩

end Calls

/-! ## The index -/

namespace Subscriptions

variable {s s' : Subscriptions}

/-- The owner of what is stored under the id. -/
def ownerOf (s : Subscriptions) (id : Nat) : Option Address := (s.subscription id).map (·.owner)

/-- The lists hold the stored subscriptions of their owners, and are not too long. -/
structure Indexed (s : Subscriptions) : Prop where
  listed : ∀ id, ClassIndex.Listed s.ownerIds id (s.ownerOf id)
  keyed : ∀ id sub, s.subscription id = some sub → sub.id = id ∧ id ≤ s.counter
  few : ∀ owner, (s.ownerIds owner).length ≤ MAX_SUBSCRIPTIONS_PER_ADDRESS

theorem Indexed.of_empty (h : s.Empty) : s.Indexed where
  listed id c := by
    unfold ownerOf
    rw [h.2.1 id, h.2.2 c]
    rfl
  keyed id sub hsub := by
    rw [h.2.1 id] at hsub
    cases hsub
  few owner := by
    rw [h.2.2 owner]
    exact Nat.zero_le _

theorem Indexed.listed_none (h : s.Indexed) {id : Nat} (hid : s.counter < id) :
    ClassIndex.Listed s.ownerIds id none := by
  have hnone : s.ownerOf id = none := by
    unfold ownerOf
    rw [Option.map_eq_none_iff, Option.eq_none_iff_forall_ne_some]
    exact fun sub hsub => absurd (h.keyed id sub hsub).2 (by omega)
  rw [← hnone]
  exact h.listed id

theorem subscription_of_pruned {now id : Nat} {ids : List Nat} {sub : Subscription}
    (h : (s.pruned now ids).subscription id = some sub) : s.subscription id = some sub := by
  unfold pruned at h
  dsimp only at h
  split at h
  · cases h
  · exact h

theorem Indexed.ownerOf_pruned (h : s.Indexed) (owner : Address) (now id : Nat) :
    (s.pruned now (s.ownerIds owner)).ownerOf id =
      if s.ownerOf id = some owner ∧ s.live now id = false then none else s.ownerOf id := by
  simp only [← (h.listed id).mem_iff]
  unfold ownerOf pruned
  dsimp only
  split
  · rfl
  · rfl

/-- **A registration keeps the index.** -/
theorem Indexed.register (h : s.Indexed) {auths : Address → Bool} {owner : Address}
    {eventTypes : List EventType} {petIds : List Nat} {ttlLedgers : Nat} {callback : Address}
    {subId : Nat} (hrun : (registerSubscription auths owner eventTypes petIds ttlLedgers
      callback).run s = .ok subId s') : s'.Indexed := by
  obtain ⟨-, -, hlen, rfl, rfl⟩ := registerSubscription_eq_ok hrun
  have hnew := h.listed_none (Nat.lt_succ_self s.counter)
  -- the list is the old one without those that expired, and with the new one
  have hadd : Function.update s.ownerIds owner
      ((s.ownerIds owner).filter (s.live s.sequence) ++ [s.counter + 1]) =
      ClassIndex.add (ClassIndex.restrict s.ownerIds owner (s.live s.sequence)) owner
        (s.counter + 1) := by
    have habsent := hnew.restrict owner (s.live s.sequence)
    rw [if_neg (by simp)] at habsent
    unfold ClassIndex.add
    rw [if_neg (fun hmem => by cases habsent.mem_iff.mp hmem)]
    unfold ClassIndex.restrict
    rw [Function.update_self, Function.update_idem]
  constructor
  · intro id
    show ClassIndex.Listed (Function.update s.ownerIds owner _) id _
    rw [hadd]
    by_cases hid : id = s.counter + 1
    · subst hid
      have habsent := hnew.restrict owner (s.live s.sequence)
      rw [if_neg (by simp)] at habsent
      have howner := habsent.add owner
      simpa [ownerOf, emit, setOwnerSubscriptionIds, setSubscription] using howner
    · have hother := ((h.listed id).restrict owner (s.live s.sequence)).add_other hid owner
      rw [← h.ownerOf_pruned] at hother
      simpa [ownerOf, emit, setOwnerSubscriptionIds, setSubscription, hid] using hother
  · intro id sub hsub
    change Function.update (s.pruned s.sequence (s.ownerIds owner)).subscription (s.counter + 1)
      _ id = some sub at hsub
    by_cases hid : id = s.counter + 1
    · subst hid
      rw [Function.update_self] at hsub
      cases hsub
      exact ⟨rfl, Nat.le_refl _⟩
    · rw [Function.update_of_ne hid] at hsub
      obtain ⟨hkey, hle⟩ := h.keyed id sub (subscription_of_pruned hsub)
      exact ⟨hkey, Nat.le_succ_of_le hle⟩
  · intro c
    show (Function.update s.ownerIds owner _ c).length ≤ _
    by_cases hc : c = owner
    · subst hc
      rw [Function.update_self, List.length_append]
      exact hlen
    · rw [Function.update_of_ne hc]
      exact h.few c

/-- **A cancellation keeps the index.** -/
theorem Indexed.cancel (h : s.Indexed) {auths : Address → Bool} {owner : Address} {subId : Nat}
    (hrun : (cancelSubscription auths owner subId).run s = .ok () s') : s'.Indexed := by
  obtain ⟨-, ⟨sub, hsub, howner⟩, rfl⟩ := cancelSubscription_eq_ok hrun
  have hlisted : ClassIndex.Listed s.ownerIds subId (some owner) := by
    have hself := h.listed subId
    unfold ownerOf at hself
    rwa [hsub, Option.map_some, howner] at hself
  constructor
  · intro id
    show ClassIndex.Listed (ClassIndex.drop s.ownerIds owner subId) id _
    by_cases hid : id = subId
    · subst hid
      simpa [ownerOf, emit, setOwnerSubscriptionIds, removeSubscription] using hlisted.drop
    · have hother := (h.listed id).drop_other hid owner
      simpa [ownerOf, emit, setOwnerSubscriptionIds, removeSubscription, hid] using hother
  · intro id sub' hsub'
    by_cases hid : id = subId
    · subst hid
      simp [emit, setOwnerSubscriptionIds, removeSubscription] at hsub'
    · apply h.keyed id sub'
      simpa [emit, setOwnerSubscriptionIds, removeSubscription, hid] using hsub'
  · intro c
    show (Function.update s.ownerIds owner _ c).length ≤ _
    by_cases hc : c = owner
    · subst hc
      rw [Function.update_self]
      exact Nat.le_trans (List.length_filter_le _ _) (h.few c)
    · rw [Function.update_of_ne hc]
      exact h.few c

theorem Indexed.act (h : s.Indexed) {l : SubscriptionLabel} (hact : s.act l = some s') :
    s'.Indexed := by
  cases l with
  | closeLedger n =>
    rw [Subscriptions.act] at hact
    split at hact
    · cases hact
      exact ⟨h.listed, h.keyed, h.few⟩
    · cases hact
  | setAllowedPayoutRecipient recipient allowed =>
    cases hact
    exact ⟨h.listed, h.keyed, h.few⟩
  | register auths owner eventTypes petIds ttlLedgers callback =>
    cases hact
    rcases invoke_cases (registerSubscription auths owner eventTypes petIds ttlLedgers callback) s
      with ⟨subId, hrun⟩ | hsame
    · exact h.register hrun
    · rwa [hsame]
  | cancel auths owner subId =>
    cases hact
    rcases invoke_cases (cancelSubscription auths owner subId) s with ⟨_, hrun⟩ | hsame
    · exact h.cancel hrun
    · rwa [hsame]

theorem Indexed.of_reach (h : subscribing.Reach always s) : s.Indexed :=
  h.invariant (fun _ hinit => .of_empty hinit) fun _ _ _ _ hstep hindexed => hindexed.act hstep

section Listing

variable (h : s.Indexed) (owner : Address)

include h

theorem Indexed.mem_ownerIds {id : Nat} :
    id ∈ s.ownerIds owner ↔ ∃ sub, s.subscription id = some sub ∧ sub.owner = owner := by
  rw [(h.listed id).mem_iff]
  unfold ownerOf
  rw [Option.map_eq_some_iff]

theorem Indexed.nodup : (s.ownerIds owner).Nodup := by
  rw [List.nodup_iff_count]
  intro id
  rw [h.listed id owner]
  split
  · exact Nat.le_refl _
  · exact Nat.zero_le _

/-- **What is listed is what can be got.** -/
theorem Indexed.mem_listSubscriptions {id : Nat} :
    id ∈ s.listSubscriptions owner ↔
      ∃ sub, s.getSubscription id = some sub ∧ sub.owner = owner := by
  unfold listSubscriptions getSubscription
  rw [listLoop_eq, List.nil_append, List.mem_filter, h.mem_ownerIds owner, live_iff]
  constructor
  · rintro ⟨⟨sub, hsub, howner⟩, sub', hsub', hlive⟩
    cases hsub.symm.trans hsub'
    exact ⟨sub, Option.filter_eq_some_iff.mpr ⟨hsub, decide_eq_true hlive⟩, howner⟩
  · rintro ⟨sub, hget, howner⟩
    obtain ⟨hsub, hlive⟩ := Option.filter_eq_some_iff.mp hget
    exact ⟨⟨sub, hsub, howner⟩, sub, hsub, of_decide_eq_true hlive⟩

theorem Indexed.nodup_listSubscriptions : (s.listSubscriptions owner).Nodup := by
  unfold listSubscriptions
  rw [listLoop_eq, List.nil_append]
  exact (h.nodup owner).filter _

end Listing

end Subscriptions

/-- **The store of subscriptions and the lists of their owners agree in every run**, and a
registration that fails changes nothing. -/
theorem subscriptions_of_reach {s : Subscriptions} (h : subscribing.Reach always s) :
    (∀ owner, (s.ownerIds owner).Nodup ∧
      (s.ownerIds owner).length ≤ MAX_SUBSCRIPTIONS_PER_ADDRESS ∧
      (∀ id ∈ s.ownerIds owner, ∃ sub, s.subscription id = some sub ∧ sub.id = id ∧
        sub.owner = owner) ∧
      (s.listSubscriptions owner).Nodup ∧
      ∀ id, id ∈ s.listSubscriptions owner ↔
        ∃ sub, s.getSubscription id = some sub ∧ sub.owner = owner) ∧
    (∀ id sub, s.subscription id = some sub → id ∈ s.ownerIds sub.owner) ∧
    ∀ auths owner eventTypes petIds ttlLedgers callback fault,
      (invoke (registerSubscription auths owner eventTypes petIds ttlLedgers callback) s).1 =
        .error fault →
      (invoke (registerSubscription auths owner eventTypes petIds ttlLedgers callback) s).2 =
      s := by
  have hindexed := Subscriptions.Indexed.of_reach h
  refine ⟨fun owner => ⟨hindexed.nodup owner, hindexed.few owner, ?_,
    hindexed.nodup_listSubscriptions owner, fun _ => hindexed.mem_listSubscriptions owner⟩, ?_, ?_⟩
  · intro id hid
    obtain ⟨sub, hsub, howner⟩ := (hindexed.mem_ownerIds owner).mp hid
    exact ⟨sub, hsub, (hindexed.keyed id sub hsub).1, howner⟩
  · exact fun id sub hsub => (hindexed.mem_ownerIds sub.owner).mpr ⟨sub, hsub, rfl⟩
  · exact fun _ _ _ _ _ _ _ hfault => invoke_of_error hfault

/-- No subscriptions, and one callback that is allowed. -/
def noSubscriptions : Subscriptions where
  sequence := 100
  allowedPayoutRecipient recipient := recipient == 9
  counter := 0
  subscription _ := none
  ownerIds _ := []
  events := []

/-- The first of three subscriptions expires and the second is cancelled; the third is listed. -/
theorem subscriptions_of_expiry : ∃ s, subscribing.Reach always s ∧
    (s.ownerIds 1 = [3] ∧ s.listSubscriptions 1 = [3]) ∧
    (s.ownerIds 1).Nodup ∧ (s.getSubscription 3).isSome := by
  have hrun : ∃ s, subscribing.Reach always s ∧
      s.ownerIds 1 = [3] ∧ s.listSubscriptions 1 = [3] :=
    exists_reach_of_runAll
      [.register (fun _ => true) 1 [.claimFiled] [] 5 9, .register (fun _ => true) 1 [] [7] 90 9,
        .closeLedger 110, .register (fun _ => true) 1 [.voteCast] [] 50 9,
        .cancel (fun _ => true) 1 2]
      (s := noSubscriptions) ⟨rfl, fun _ => rfl, fun _ => rfl⟩ (by decide)
  obtain ⟨s, hreach, hids, hlist⟩ := hrun
  have hall := subscriptions_of_reach hreach
  obtain ⟨sub, hsub, -⟩ := ((hall.1 1).2.2.2.2 3).mp (by simp [hlist])
  exact ⟨s, hreach, ⟨hids, hlist⟩, (hall.1 1).1, by simp [hsub]⟩

end NiffyInsure
