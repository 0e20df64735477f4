import NiffyInsure.Lib.Machine
import Mathlib.Algebra.BigOperators.Group.List.Basic

/-!
# Calls that run concurrently

Any number of calls of one program share a state.  A call takes one atomic step after the other,
each on the shared state and its own local state, and the steps of the calls come in any order; in
between the surroundings may change the shared state too.

* `step_cases`: what a step is; `exists_step`, `next_of_step`: what a step of a call is.
* `Reach.stagedInvariant`: the stage that all calls are at, and an assertion about each call at that
  stage, which the steps of the other calls do not disturb.
* `Reach.sharedInvariant`: the same for an invariant of the shared state.
* `sum_map_set`: what a step of one call does to a sum over the calls.
-/

universe u v w x y z

namespace Concurrent

/-- How a call starts from its arguments, what its next step does (`none`: it is over, or cannot do
this), and what the surroundings do.  The outcome of a step is what the program does not decide. -/
structure Program (σ : Type u) (P : Type v) (A : Type w) (O : Type x) (E : Type y) where
  start : σ → A → Option (σ × P)
  next : σ → P → O → Option (σ × P)
  around : σ → E → Option σ

/-- The shared state, and the calls in the order in which they started. -/
structure State (σ : Type u) (P : Type v) where
  shared : σ
  calls : List P

inductive Label (A : Type w) (O : Type x) (E : Type y) where
  /-- Another call starts. -/
  | start (args : A)
  /-- The call `i` takes its next step. -/
  | next (i : Nat) (outcome : O)
  | around (e : E)

variable {σ : Type u} {P : Type v} {A : Type w} {O : Type x} {E : Type y}

/-- Another call has come to `p`, and the shared state with it. -/
def State.add (s : State σ P) (q : σ × P) : State σ P := ⟨q.1, s.calls ++ [q.2]⟩

/-- The call `i` has come to `p`, and the shared state with it. -/
def State.put (s : State σ P) (i : Nat) (q : σ × P) : State σ P := ⟨q.1, s.calls.set i q.2⟩

/-- One step. -/
def Program.act (prog : Program σ P A O E) (s : State σ P) : Label A O E → Option (State σ P)
  | .start args => (prog.start s.shared args).map s.add
  | .next i outcome => s.calls[i]?.bind fun p => (prog.next s.shared p outcome).map (s.put i)
  | .around e => (prog.around s.shared e).map fun shared => { s with shared := shared }

/-- The calls of `prog`, from the shared states that `init` admits and no call. -/
def Program.machine (prog : Program σ P A O E) (init : σ → Prop) :
    Machine (State σ P) (Label A O E) :=
  Machine.ofAct prog.act fun s => init s.shared ∧ s.calls = []

variable {prog : Program σ P A O E} {init : σ → Prop} {s t : State σ P} {l : Label A O E}
  {ok : State σ P → Label A O E → Prop}

theorem step_cases (h : prog.act s l = some t) :
    (∃ args q, l = .start args ∧ prog.start s.shared args = some q ∧ t = s.add q) ∨
    (∃ i outcome p q, l = .next i outcome ∧ s.calls[i]? = some p ∧
      prog.next s.shared p outcome = some q ∧ t = s.put i q) ∨
    ∃ e shared, l = .around e ∧ prog.around s.shared e = some shared ∧
      t = { s with shared := shared } := by
  cases l with
  | start args =>
    obtain ⟨q, hq, rfl⟩ := Option.map_eq_some_iff.mp h
    exact .inl ⟨args, q, rfl, hq, rfl⟩
  | next i outcome =>
    obtain ⟨p, hp, h⟩ := Option.bind_eq_some_iff.mp h
    obtain ⟨q, hq, rfl⟩ := Option.map_eq_some_iff.mp h
    exact .inr (.inl ⟨i, outcome, p, q, rfl, hp, hq, rfl⟩)
  | around e =>
    obtain ⟨shared, hshared, rfl⟩ := Option.map_eq_some_iff.mp h
    exact .inr (.inr ⟨e, shared, rfl, hshared, rfl⟩)

theorem exists_step {i : Nat} {outcome : O} {p : P} (hp : s.calls[i]? = some p)
    (h : (prog.next s.shared p outcome).isSome) : ∃ t, prog.act s (.next i outcome) = some t := by
  obtain ⟨q, hq⟩ := Option.isSome_iff_exists.mp h
  refine ⟨s.put i q, ?_⟩
  rw [Program.act, hp, Option.bind_some, hq, Option.map_some]

theorem next_of_step {i : Nat} {outcome : O} {p : P} (hp : s.calls[i]? = some p)
    (h : prog.act s (.next i outcome) = some t) :
    ∃ q, prog.next s.shared p outcome = some q ∧ t = s.put i q ∧ t.calls[i]? = some q.2 := by
  rw [Program.act, hp, Option.bind_some] at h
  obtain ⟨q, hq, rfl⟩ := Option.map_eq_some_iff.mp h
  obtain ⟨hi, -⟩ := List.getElem?_eq_some_iff.mp hp
  exact ⟨q, hq, rfl, List.getElem?_set_self hi⟩

/-- **A stage, and an assertion for each call.**  Every step takes the stage that the shared state
and the calls are at to one that they are at next; the step makes the assertion of its own call true
at that stage, and disturbs the assertion of no other call. -/
theorem Reach.stagedInvariant {τ : Type z} {I : τ → σ → List P → Prop} {J : τ → σ → Nat → P → Prop}
    (hinit : ∀ shared, init shared → ∃ x, I x shared [])
    (hstart : ∀ s args q x, ok s (.start args) → I x s.shared s.calls →
      prog.start s.shared args = some q →
        ∃ y, I y q.1 (s.calls ++ [q.2]) ∧ J y q.1 s.calls.length q.2 ∧
          ∀ i p, s.calls[i]? = some p → J x s.shared i p → J y q.1 i p)
    (hnext : ∀ s i outcome p q x, ok s (.next i outcome) → s.calls[i]? = some p →
      I x s.shared s.calls → J x s.shared i p → prog.next s.shared p outcome = some q →
        ∃ y, I y q.1 (s.calls.set i q.2) ∧ J y q.1 i q.2 ∧
          ∀ j p', j ≠ i → s.calls[j]? = some p' → J x s.shared j p' → J y q.1 j p')
    (haround : ∀ s e shared x, ok s (.around e) → I x s.shared s.calls →
      prog.around s.shared e = some shared →
        ∃ y, I y shared s.calls ∧ ∀ i p, s.calls[i]? = some p → J x s.shared i p → J y shared i p)
    (h : (prog.machine init).Reach ok s) :
    ∃ x, I x s.shared s.calls ∧ ∀ i p, s.calls[i]? = some p → J x s.shared i p := by
  refine h.invariant (I := fun s => ∃ x, I x s.shared s.calls ∧
    ∀ i p, s.calls[i]? = some p → J x s.shared i p) ?_ ?_
  · rintro s ⟨hs, hnone⟩
    obtain ⟨x, hx⟩ := hinit _ hs
    rw [hnone]
    exact ⟨x, hx, nofun⟩
  · rintro s l t hl hstep ⟨x, hI, hJ⟩
    rcases step_cases hstep with ⟨args, q, rfl, hq, rfl⟩ | ⟨i, outcome, p, q, rfl, hp, hq, rfl⟩ |
      ⟨e, shared, rfl, he, rfl⟩
    · obtain ⟨y, hI', hown, hothers⟩ := hstart s args q x hl hI hq
      refine ⟨y, hI', fun i p hp => ?_⟩
      rcases Nat.lt_or_ge i s.calls.length with hi | hi
      · have hold : s.calls[i]? = some p := by
          rwa [State.add, List.getElem?_append_left hi] at hp
        exact hothers i p hold (hJ i p hold)
      · rw [State.add, List.getElem?_append_right hi, List.getElem?_singleton] at hp
        split at hp
        · rename_i heq
          obtain rfl : i = s.calls.length := by omega
          cases hp
          exact hown
        · cases hp
    · obtain ⟨y, hI', hown, hothers⟩ := hnext s i outcome p q x hl hp hI (hJ i p hp) hq
      refine ⟨y, hI', fun j r hr => ?_⟩
      by_cases hij : i = j
      · subst hij
        obtain ⟨hi, -⟩ := List.getElem?_eq_some_iff.mp hp
        rw [State.put, List.getElem?_set_self hi] at hr
        cases hr
        exact hown
      · rw [State.put, List.getElem?_set_ne hij] at hr
        exact hothers j r (Ne.symm hij) hr (hJ j r hr)
    · obtain ⟨y, hI', hothers⟩ := haround s e shared x hl hI he
      exact ⟨y, hI', fun i p hp => hothers i p hp (hJ i p hp)⟩

/-- **An invariant and an assertion for each call.**  Every step keeps the invariant and makes the
assertion of its own call true, and disturbs the assertion of no other call. -/
theorem Reach.sharedInvariant {I : σ → Prop} {J : σ → P → Prop}
    (hinit : ∀ shared, init shared → I shared)
    (hstart : ∀ s args q, ok s (.start args) → I s.shared →
      prog.start s.shared args = some q →
        I q.1 ∧ J q.1 q.2 ∧ ∀ p ∈ s.calls, J s.shared p → J q.1 p)
    (hnext : ∀ s i outcome p q, ok s (.next i outcome) → s.calls[i]? = some p → I s.shared →
      J s.shared p → prog.next s.shared p outcome = some q →
        I q.1 ∧ J q.1 q.2 ∧ ∀ p' ∈ s.calls, J s.shared p' → J q.1 p')
    (haround : ∀ s e shared, ok s (.around e) → I s.shared → prog.around s.shared e = some shared →
      I shared ∧ ∀ p ∈ s.calls, J s.shared p → J shared p)
    (h : (prog.machine init).Reach ok s) : I s.shared ∧ ∀ p ∈ s.calls, J s.shared p := by
  have hstaged : ∃ _ : Unit, I s.shared ∧
      ∀ (i : Nat) (p : P), s.calls[i]? = some p → J s.shared p := by
    refine Reach.stagedInvariant (I := fun _ shared _ => I shared) (J := fun _ shared _ => J shared)
      ?_ ?_ ?_ ?_ h
    · exact fun shared hs => ⟨(), hinit shared hs⟩
    · intro s args q _ hl hI hq
      obtain ⟨hI', hown, hothers⟩ := hstart s args q hl hI hq
      exact ⟨(), hI', hown, fun i p hp => hothers p (List.mem_of_getElem? hp)⟩
    · intro s i outcome p q _ hl hp hI hJ hq
      obtain ⟨hI', hown, hothers⟩ := hnext s i outcome p q hl hp hI hJ hq
      exact ⟨(), hI', hown, fun j p' _ hp' => hothers p' (List.mem_of_getElem? hp')⟩
    · intro s e shared _ hl hI he
      obtain ⟨hI', hothers⟩ := haround s e shared hl hI he
      exact ⟨(), hI', fun i p hp => hothers p (List.mem_of_getElem? hp)⟩
  obtain ⟨_, hI, hJ⟩ := hstaged
  refine ⟨hI, fun p hp => ?_⟩
  obtain ⟨i, hi⟩ := List.getElem?_of_mem hp
  exact hJ i p hi

theorem sum_map_set {M : Type z} [AddCommMonoid M] (f : P → M) {calls : List P} {i : Nat} {p : P}
    (hp : calls[i]? = some p) (q : P) :
    ((calls.set i q).map f).sum + f p = (calls.map f).sum + f q := by
  induction calls generalizing i with
  | nil => cases hp
  | cons r calls ih =>
    cases i with
    | zero =>
      cases hp
      simp only [List.set_cons_zero, List.map_cons, List.sum_cons]
      rw [add_right_comm, add_comm (f q), add_right_comm, add_comm (f p)]
    | succ i =>
      simp only [List.set_cons_succ, List.map_cons, List.sum_cons]
      rw [add_assoc, ih hp, add_assoc]

end Concurrent
