import NiffyInsure.Lib.Concurrent
import Mathlib.Data.Multiset.MapFold
import Mathlib.Data.Multiset.OrderedMonoid
import Mathlib.Algebra.Order.BigOperators.Group.List

/-!
# Optimistic mutations

`optimisticMutation` changes the cached data of a query before the request is sent, and restores
what was cached before if the request fails.  What it writes, it has computed from what it read some
steps before, and what it restores is all of the data, not only its own change.

* `Made`: the data are the initial ones with the changes that are made and not undone.
* `rollsBackOnlyItself_of_undisturbed`: so in the end they are the initial ones with the changes of
  the mutations that succeeded, if no change of another mutation is made or undone while one
  computes what it will write, or before it restores what it has read.
* `not_rollsBackOnlyItself`: else a rollback takes away the change of another mutation.
-/

namespace NiffyInsure.Frontend.Optimistic

/-! ## The data -/

/-- The functions of a mutation, on data of the type `α`, with variables of the type `V` and
responses of the type `D`.  The context of a rollback is the snapshot. -/
structure OptimisticMutationConfig (α V D : Type) where
  apply : Option α → V → α
  rollback : Option (Option α → V → Option (Option α) → α)
  reconcile : Option (D → V → Option α → α)

/-- Data that were read, `none` if there were none.  The changes that were in the cache at the time
are noted with them. -/
structure Reading (α V : Type) where
  data : Option α
  seen : Multiset V
  deriving DecidableEq

/-- What is cached under the query key, and the changes that were made and not undone. -/
structure Cache (α V : Type) where
  data : Option α
  made : Multiset V

/-- Where a mutation is.  `previous` is its snapshot. -/
inductive Phase (α V D : Type) where
  | cancelling
  /-- It waits for `apply`. -/
  | applying (previous current : Reading α V)
  | requesting (previous : Reading α V)
  | succeeded (data : D) (previous : Reading α V)
  | reconciling (data : D) (current previous : Reading α V)
  /-- Without a context if the change was not made. -/
  | failed (context : Option (Reading α V))
  | rollingBack (context : Option (Reading α V)) (current : Reading α V)
  | settled (success : Bool)

structure Mutation (α V D : Type) where
  vars : V
  phase : Phase α V D

/-- What the mutation waits for: it resolves, it rejects, or it is the response. -/
inductive Outcome (D : Type) where
  | ok
  | error
  | responds (data : D)

/-! ## The steps -/

section Steps

variable {α V D : Type} [DecidableEq V]

/-- `setQueryData` of the package: what is cached after it, from what was cached and the new
data. -/
abbrev SetQueryData (α : Type) := Option α → Option α → Option α

namespace Cache

variable (c : Cache α V)

/-- `queryClient.getQueryData(key)`. -/
def getQueryData : Reading α V := ⟨c.data, c.made⟩

variable (set : SetQueryData α)

/-- `queryClient.setQueryData(key, data)`. -/
def write (data : Option α) : Cache α V := { c with data := set c.data data }

/-- The same, where that makes the change of `v`, or undoes changes. -/
def make (v : V) (data : α) : Cache α V := { c.write set (some data) with made := v ::ₘ c.made }

def undo (changes : Multiset V) (data : Option α) : Cache α V :=
  { c.write set data with made := c.made - changes }

end Cache

variable (config : OptimisticMutationConfig α V D) (set : SetQueryData α)

/-- The next step of a mutation: of `onMutate`, of the request, of `onError` or of `onSuccess`. -/
def next (c : Cache α V) (v : V) : Phase α V D → Outcome D → Option (Cache α V × Phase α V D)
  | .cancelling, .ok => some (c, .applying c.getQueryData c.getQueryData)
  | .cancelling, .error => some (c, .failed none)
  | .applying previous current, .ok =>
    some (c.make set v (config.apply current.data v), .requesting previous)
  | .applying _ _, .error => some (c, .failed none)
  | .requesting previous, .responds data => some (c, .succeeded data previous)
  | .requesting previous, .error => some (c, .failed (some previous))
  | .succeeded data previous, .ok =>
    -- without `reconcile` the query is invalidated, and its data stay
    if config.reconcile.isSome then some (c, .reconciling data c.getQueryData previous)
    else some (c, .settled true)
  | .reconciling data current _, .ok => config.reconcile.map fun reconcile =>
    (c.write set (some (reconcile data v current.data)), .settled true)
  -- what `onSuccess` throws, `onError` gets
  | .reconciling _ _ previous, .error => some (c, .failed (some previous))
  | .failed context, .ok =>
    match config.rollback, context with
    | some _, _ => some (c, .rollingBack context c.getQueryData)
    | none, some previous => some (c.undo set {v} previous.data, .settled false)
    | none, none => some (c, .settled false)
  | .rollingBack context current, .ok => config.rollback.map fun rollback =>
    (c.undo set (if context.isSome then {v} else 0)
      (some (rollback current.data v (context.map Reading.data))), .settled false)
  | .rollingBack _ _, .error => config.rollback.map fun _ => (c, .settled false)
  | _, _ => none

abbrev State (α V D : Type) := Concurrent.State (Cache α V) (Mutation α V D)

abbrev Label (V D : Type) := Concurrent.Label V (Outcome D) Empty

/-- Mutations of one query key.  Nothing else writes its data. -/
def program : Concurrent.Program (Cache α V) (Mutation α V D) V (Outcome D) Empty where
  start c v := some (c, ⟨v, .cancelling⟩)
  next c m outcome := (next config set c m.vars m.phase outcome).map fun q =>
    (q.1, { m with phase := q.2 })
  around _ e := nomatch e

def machine (initial : Option α) : Machine (State α V D) (Label V D) :=
  (program config set).machine fun c => c = ⟨initial, 0⟩

/-! ## What is asked of the changes -/

/-- `apply`, as a change of the cached data. -/
def OptimisticMutationConfig.change (v : V) (cached : Option α) : Option α :=
  some (config.apply cached v)

/-- The data are set, unless they are `undefined`. -/
def SetsData : Prop := ∀ (cached : Option α) (data : α), set cached (some data) = some data

/-- The data that are confirmed are those that are cached. -/
def OptimisticMutationConfig.Confirms : Prop :=
  ∃ reconcile, config.reconcile = some reconcile ∧
    ∀ data v (cached : α), reconcile data v (some cached) = cached

/-- The changes that the mutation reads, are still those in the cache when it writes; and when it
restores its snapshot, which is not `undefined`, there are these and its own. -/
def Mutation.Undisturbed (m : Mutation α V D) (c : Cache α V) : Prop :=
  match m.phase with
  | .applying _ current | .reconciling _ current _ => c.made = current.seen
  | .failed (some previous) => c.made = m.vars ::ₘ previous.seen ∧ previous.data.isSome
  | _ => True

/-- The condition on a step. -/
def Undisturbed (s : State α V D) : Label V D → Prop
  | .next i .ok => ∀ m ∈ s.calls[i]?, m.Undisturbed s.shared
  | _ => True

def Phase.success : Phase α V D → Bool
  | .settled success => success
  | _ => false

def Phase.isSettled : Phase α V D → Bool
  | .settled _ => true
  | _ => false

/-- Once all mutations have settled, the data are the initial ones with exactly the changes of those
that succeeded. -/
def RollsBackOnlyItself (ok : State α V D → Label V D → Prop) : Prop :=
  ∀ initial s, (machine config set initial).Reach ok s → (∀ m ∈ s.calls, m.phase.isSettled) →
    s.shared.data = ((s.calls.filter (·.phase.success)).map (·.vars)).foldr config.change initial

end Steps

/-! ## What a step does -/

section Moves

variable {α V D : Type} [DecidableEq V] {config : OptimisticMutationConfig α V D}
  {set : SetQueryData α} {c c' : Cache α V} {v : V} {p p' : Phase α V D} {outcome : Outcome D}

/-- Whether the change of the mutation was made and not undone. -/
def Phase.changed : Phase α V D → Bool
  | .requesting _ | .succeeded _ _ | .reconciling _ _ _ => true
  | .failed context | .rollingBack context _ => context.isSome
  | .settled success => success
  | .cancelling | .applying _ _ => false

def Phase.readings : Phase α V D → List (Reading α V)
  | .applying previous current | .reconciling _ current previous => [previous, current]
  | .requesting previous | .succeeded _ previous => [previous]
  | .failed context => context.toList
  | .rollingBack context current => current :: context.toList
  | .cancelling | .settled _ => []

/-- A step of a mutation with the default rollback. -/
inductive Move (config : OptimisticMutationConfig α V D) (set : SetQueryData α)
    (c : Cache α V) (v : V) : Phase α V D → Outcome D → Cache α V → Phase α V D → Prop
  /-- Nothing is written. -/
  | waited {p p' : Phase α V D} {outcome : Outcome D} (hchanged : p'.changed = p.changed)
      (hreadings : ∀ r ∈ p'.readings, r ∈ p.readings ∨ r = c.getQueryData) :
      Move config set c v p outcome c p'
  | made {previous current : Reading α V} :
      Move config set c v (.applying previous current) .ok
        (c.make set v (config.apply current.data v)) (.requesting previous)
  | undone {previous : Reading α V} :
      Move config set c v (.failed (some previous)) .ok (c.undo set {v} previous.data)
        (.settled false)
  | confirmed {data : D} {current previous : Reading α V} {reconcile : D → V → Option α → α}
      (hreconcile : config.reconcile = some reconcile) :
      Move config set c v (.reconciling data current previous) .ok
        (c.write set (some (reconcile data v current.data))) (.settled true)

theorem move_of_next (hdefault : config.rollback = none)
    (h : next config set c v p outcome = some (c', p')) : Move config set c v p outcome c' p' := by
  cases p with
  | cancelling =>
    cases outcome <;> cases h
    · exact .waited rfl (by simp [Phase.readings])
    · exact .waited rfl nofun
  | applying previous current =>
    cases outcome <;> cases h
    · exact .made
    · exact .waited rfl nofun
  | requesting previous =>
    cases outcome <;> cases h <;> exact .waited rfl fun r hr => .inl hr
  | succeeded data previous =>
    cases outcome with
    | ok =>
      rw [next] at h
      split at h <;> cases h
      · exact .waited rfl (by simp [Phase.readings])
      · exact .waited rfl nofun
    | error | responds => cases h
  | reconciling data current previous =>
    cases outcome with
    | ok =>
      obtain ⟨reconcile, hreconcile, h⟩ := Option.map_eq_some_iff.mp h
      cases h
      exact .confirmed hreconcile
    | error =>
      cases h
      exact .waited rfl (by simp [Phase.readings])
    | responds => cases h
  | failed context =>
    cases outcome with
    | ok =>
      cases context <;> simp only [next, hdefault] at h <;> cases h
      · exact .waited rfl nofun
      · exact .undone
    | error | responds => cases h
  | rollingBack context current =>
    cases outcome <;> simp only [next, hdefault] at h <;> cases h
  | settled => cases outcome <;> cases h

end Moves

/-! ## The changes in the cache -/

section Changes

variable {α V D : Type} {config : OptimisticMutationConfig α V D} {set : SetQueryData α}
  {initial : Option α} {c c' : Cache α V} {v : V} {p p' : Phase α V D} {outcome : Outcome D}

/-- What the mutation has in the cache. -/
def Phase.contribution (v : V) (p : Phase α V D) : Multiset V := if p.changed then {v} else 0

theorem sum_contribution {calls : List (Mutation α V D)} (h : ∀ m ∈ calls, m.phase.isSettled) :
    (calls.map fun m => m.phase.contribution m.vars).sum =
      ((calls.filter (·.phase.success)).map (·.vars) : Multiset V) := by
  induction calls with
  | nil => rfl
  | cons m calls ih =>
    obtain ⟨hm, hcalls⟩ := List.forall_mem_cons.mp h
    obtain ⟨v, p⟩ := m
    rw [List.map_cons, List.sum_cons, ih hcalls]
    cases p with
    | settled success =>
      cases success
      · exact zero_add _
      · exact Multiset.singleton_add _ _
    | _ => cases hm

variable [LeftCommutative config.change]

variable (config initial) in
/-- The data with the changes that are noted. -/
def Reading.Sound (r : Reading α V) : Prop := r.data = r.seen.foldr config.change initial

variable (config initial) in
/-- The data are the initial ones with the changes that are made and not undone, and these are the
changes of the mutations that have them in the cache. -/
structure Made (c : Cache α V) (calls : List (Mutation α V D)) : Prop where
  sound : Reading.Sound config initial c.getQueryData
  made : c.made = (calls.map fun m => m.phase.contribution m.vars).sum

theorem Made.mem {calls : List (Mutation α V D)} (h : Made config initial c calls)
    {m : Mutation α V D} (hm : m ∈ calls) (hchanged : m.phase.changed) : m.vars ∈ c.made := by
  have hself : m.phase.contribution m.vars = {m.vars} := if_pos hchanged
  have hle : m.phase.contribution m.vars ≤ (calls.map fun m => m.phase.contribution m.vars).sum :=
    List.le_sum_of_mem (List.mem_map.mpr ⟨m, hm, rfl⟩)
  rw [h.made]
  exact Multiset.mem_of_le hle (hself ▸ Multiset.mem_singleton_self _)

variable [DecidableEq V]

/-- **A step of an undisturbed mutation.**  What it reads and writes is sound, and the changes in
the cache change as what it has there. -/
theorem sound_of_move (hset : SetsData set) (hconfirms : config.Confirms)
    (h : Move config set c v p outcome c' p') (hc : Reading.Sound config initial c.getQueryData)
    (hp : ∀ r ∈ p.readings, Reading.Sound config initial r)
    (hmem : p.changed → v ∈ c.made) (hok : outcome = .ok → Mutation.Undisturbed ⟨v, p⟩ c) :
    Reading.Sound config initial c'.getQueryData ∧
      (∀ r ∈ p'.readings, Reading.Sound config initial r) ∧
      c'.made + p.contribution v = c.made + p'.contribution v := by
  cases h with
  | waited hchanged hreadings =>
    refine ⟨hc, fun r hr => ?_, ?_⟩
    · rcases hreadings r hr with hr | rfl
      · exact hp r hr
      · exact hc
    · rw [Phase.contribution, Phase.contribution, hchanged]
  | @made previous current =>
    have hseen : c.made = current.seen := hok rfl
    have hcurrent : Reading.Sound config initial current := hp current (by simp [Phase.readings])
    refine ⟨?_, fun r hr => hp r ?_, ?_⟩
    · show set c.data (some _) = (v ::ₘ c.made).foldr config.change initial
      rw [hset, Multiset.foldr_cons, hseen, ← hcurrent]
      rfl
    · rw [List.mem_singleton.mp hr]
      exact List.mem_cons_self
    · show v ::ₘ c.made + 0 = c.made + {v}
      rw [add_zero, ← Multiset.singleton_add, add_comm]
  | @undone previous =>
    obtain ⟨hmade, hsome⟩ : c.made = v ::ₘ previous.seen ∧ previous.data.isSome := hok rfl
    obtain ⟨data, hdata⟩ := Option.isSome_iff_exists.mp hsome
    have hprevious : Reading.Sound config initial previous :=
      hp previous (List.mem_singleton_self _)
    have hrest : c.made - {v} = previous.seen := by
      rw [hmade, Multiset.sub_singleton, Multiset.erase_cons_head]
    refine ⟨?_, nofun, ?_⟩
    · show set c.data previous.data = (c.made - {v}).foldr config.change initial
      rw [hdata, hset, hrest, ← hdata]
      exact hprevious
    · show c.made - {v} + {v} = c.made + 0
      rw [hrest, hmade, add_zero, add_comm, Multiset.singleton_add]
  | @confirmed data current previous reconcile hreconcile =>
    have hseen : c.made = current.seen := hok rfl
    have hcurrent : current.data = c.data := by
      have hread : Reading.Sound config initial current := hp current (by simp [Phase.readings])
      exact hread.trans (hseen ▸ hc.symm)
    obtain ⟨cached, hcached⟩ : ∃ cached, c.data = some cached := by
      -- its own change is in the cache, so that there are data
      obtain ⟨others, hothers⟩ := Multiset.exists_cons_of_mem (hmem rfl)
      refine ⟨config.apply (others.foldr config.change initial) v, hc.trans ?_⟩
      show c.made.foldr config.change initial = _
      rw [hothers, Multiset.foldr_cons]
      rfl
    obtain ⟨_, hconfirm, hkeeps⟩ := hconfirms
    cases hreconcile.symm.trans hconfirm
    refine ⟨?_, nofun, rfl⟩
    show set c.data (some (reconcile data v current.data)) = c.made.foldr config.change initial
    rw [hset, hcurrent, hcached, hkeeps, ← hcached]
    exact hc

/-- **What is cached, in every run whose steps are undisturbed**, also while mutations are on their
way. -/
theorem made_of_reach (hset : SetsData set) (hdefault : config.rollback = none)
    (hconfirms : config.Confirms) {s : State α V D}
    (h : (machine config set initial).Reach Undisturbed s) :
    Made config initial s.shared s.calls := by
  have hstaged : ∃ _ : Unit, Made config initial s.shared s.calls ∧
      ∀ (i : Nat) (m : Mutation α V D), s.calls[i]? = some m →
        ∀ r ∈ m.phase.readings, Reading.Sound config initial r := by
    refine Concurrent.Reach.stagedInvariant (I := fun _ => Made config initial)
      (J := fun _ _ _ m => ∀ r ∈ m.phase.readings, Reading.Sound config initial r) ?_ ?_ ?_ ?_ h
    · rintro _ rfl
      exact ⟨(), rfl, rfl⟩
    · intro s v q _ _ hmade hq
      cases hq
      refine ⟨(), ⟨hmade.sound, ?_⟩, nofun, fun _ _ _ hreadings => hreadings⟩
      rw [List.map_append, List.sum_append, ← hmade.made]
      exact (add_zero _).symm
    · intro s i outcome m q _ hok hm hmade hreadings hq
      obtain ⟨⟨c', p'⟩, hnext, rfl⟩ := Option.map_eq_some_iff.mp hq
      have hundisturbed : outcome = .ok → m.Undisturbed s.shared := by
        rintro rfl
        exact hok m hm
      obtain ⟨hsound, hreadings', hsum⟩ := sound_of_move hset hconfirms
        (move_of_next hdefault hnext)
        hmade.sound hreadings (hmade.mem (List.mem_of_getElem? hm)) hundisturbed
      refine ⟨(), ⟨hsound, ?_⟩, hreadings', fun _ _ _ _ hreadings => hreadings⟩
      have hset := Concurrent.sum_map_set (fun m => m.phase.contribution m.vars) hm
          { m with phase := p' }
      rw [← hmade.made] at hset
      exact add_right_cancel (hsum.trans hset.symm)
    · exact fun _ e => nomatch e
  exact hstaged.choose_spec.1

/-- **Undisturbed mutations roll back only themselves.** -/
theorem rollsBackOnlyItself_of_undisturbed (hset : SetsData set) (hdefault : config.rollback = none)
    (hconfirms : config.Confirms) : RollsBackOnlyItself config set Undisturbed := by
  intro initial s h hsettled
  have hmade := made_of_reach hset hdefault hconfirms h
  have hsound : s.shared.data = s.shared.made.foldr config.change initial := hmade.sound
  rw [hsound, hmade.made, sum_contribution hsettled, Multiset.coe_foldr]

end Changes

/-! ## Two mutations -/

/-- Each mutation adds to a number, and the response changes nothing. -/
def addition : OptimisticMutationConfig ℕ ℕ Unit where
  apply cached n := cached.getD 0 + n
  rollback := none
  reconcile := some fun _ _ cached => cached.getD 0

/-- Data that are `undefined` are not set. -/
def setDefined : SetQueryData ℕ := fun cached data => data.or cached

theorem setsData_setDefined : SetsData setDefined := fun _ _ => rfl

theorem addition_confirms : addition.Confirms := ⟨_, rfl, fun _ _ _ => rfl⟩

instance : LeftCommutative addition.change where
  left_comm m n cached := congrArg some (Nat.add_right_comm (cached.getD 0) n m)

instance {α V D : Type} [DecidableEq V] (m : Mutation α V D) (c : Cache α V) :
    Decidable (m.Undisturbed c) := by
  unfold Mutation.Undisturbed
  split <;> infer_instance

instance {α V D : Type} [DecidableEq V] (s : State α V D) :
    ∀ l, Decidable (Undisturbed s l)
  | .next i .ok => inferInstanceAs (Decidable (∀ m ∈ s.calls[i]?, m.Undisturbed s.shared))
  | .next _ .error | .next _ (.responds _) | .start _ | .around _ =>
    inferInstanceAs (Decidable True)

/-- Two mutations, of which the second one starts when the first one has made its change. -/
def bothMade : List (Label ℕ Unit) :=
  [.start 1, .start 2, .next 0 .ok, .next 0 .ok, .next 1 .ok, .next 1 .ok]

/-- The mutation `i` succeeds, or fails. -/
def succeeds (i : ℕ) : List (Label ℕ Unit) :=
  [.next i (.responds ()), .next i .ok, .next i .ok]

def fails (i : ℕ) : List (Label ℕ Unit) := [.next i .error, .next i .ok]

/-- The second one fails, and the change of the first one stays. -/
theorem rollsBackOnlyItself_second_fails : ∃ s,
    (machine addition setDefined (some 0)).Reach Undisturbed s ∧
      s.calls.map (·.phase.success) = [true, false] ∧ s.shared.data = some 1 := by
  obtain ⟨s, h, hsettled, hsuccess, hvars⟩ : ∃ s,
      (machine addition setDefined (some 0)).Reach Undisturbed s ∧
        (∀ m ∈ s.calls, m.phase.isSettled) ∧ s.calls.map (·.phase.success) = [true, false] ∧
          (s.calls.filter (·.phase.success)).map (·.vars) = [1] :=
    Machine.exists_reach_of_runAll (bothMade ++ fails 1 ++ succeeds 0) (s := ⟨⟨some 0, 0⟩, []⟩)
      ⟨rfl, rfl⟩ (by decide)
  refine ⟨s, h, hsuccess, ?_⟩
  rw [rollsBackOnlyItself_of_undisturbed setsData_setDefined rfl addition_confirms
    (some 0) s h hsettled, hvars]
  rfl

/-- **A rollback takes away the change of another mutation**: the first one fails, and the snapshot
that it restores is without the change of the second one. -/
theorem not_rollsBackOnlyItself : SetsData setDefined ∧ addition.rollback = none ∧
    addition.Confirms ∧
    LeftCommutative addition.change ∧ ¬ RollsBackOnlyItself addition setDefined Machine.always := by
  refine ⟨setsData_setDefined, rfl, addition_confirms, inferInstance, fun hclaim => ?_⟩
  obtain ⟨s, h, hsettled, hvars, hdata⟩ : ∃ s,
      (machine addition setDefined (some 0)).Reach Machine.always s ∧
        (∀ m ∈ s.calls, m.phase.isSettled) ∧
          (s.calls.filter (·.phase.success)).map (·.vars) = [2] ∧ s.shared.data = some 0 :=
    Machine.exists_reach_of_runAll (bothMade ++ fails 0 ++ succeeds 1) (s := ⟨⟨some 0, 0⟩, []⟩)
      ⟨rfl, rfl⟩ (by decide)
  have hboth := hclaim (some 0) s h hsettled
  rw [hvars, hdata] at hboth
  cases hboth

end NiffyInsure.Frontend.Optimistic
