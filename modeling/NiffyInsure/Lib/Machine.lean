import Mathlib.Logic.Relation

/-!
# Labelled machines and their runs

A machine has initial states and labelled steps.  A run may be restricted to the labels
that a condition `ok` admits in the state where they are taken, so that "in every run
whose steps meet the condition" is a statement about `Reach M ok`.

* `Reach.invariant`: what the initial states have and every admitted step keeps, every
  reached state has.
* `Reach.invariant_with`: the same, where the step may use facts known of every reached
  state.
* `Steps.invariant`: what a step keeps, a run keeps, from wherever it starts.
* `Reach.map`: a machine that is seen as another one has its runs.
* `withHistory`: the same machine with a history beside the state, for statements about what
  happened before.  `Reach.forget`: its runs are runs of the machine.
* `ofAct`: the machine whose steps a partial function takes.  Its runs can be computed
  (`exists_reach_of_runAll`).
-/

universe u v

/-- A transition system with labelled steps. -/
structure Machine (σ : Type u) (L : Type v) where
  init : σ → Prop
  step : σ → L → σ → Prop

namespace Machine

variable {σ : Type u} {L : Type v} (M : Machine σ L)

/-- Every label is admitted. -/
def always : σ → L → Prop := fun _ _ => True

instance (s : σ) (l : L) : Decidable (always s l) := inferInstanceAs (Decidable True)

/-- `t` comes after `s` by steps that `ok` admits. -/
def Steps (ok : σ → L → Prop) : σ → σ → Prop :=
  Relation.ReflTransGen fun s t => ∃ l, ok s l ∧ M.step s l t

/-- The states reached from an initial one by steps that `ok` admits. -/
def Reach (ok : σ → L → Prop) (t : σ) : Prop := ∃ s, M.init s ∧ M.Steps ok s t

variable {M} {ok ok' : σ → L → Prop} {I J : σ → Prop} {s t u : σ}

theorem Reach.of_init (h : M.init s) : M.Reach ok s := ⟨s, h, Relation.ReflTransGen.refl⟩

theorem Reach.tail {l : L} (h : M.Reach ok s) (hl : ok s l) (hstep : M.step s l t) :
    M.Reach ok t := by
  obtain ⟨s₀, hinit, hrun⟩ := h
  exact ⟨s₀, hinit, hrun.tail ⟨l, hl, hstep⟩⟩

theorem Reach.mono (hok : ∀ s l, ok s l → ok' s l) (h : M.Reach ok s) : M.Reach ok' s := by
  obtain ⟨s₀, hinit, hrun⟩ := h
  refine ⟨s₀, hinit, Relation.ReflTransGen.mono ?_ _ _ hrun⟩
  rintro a b ⟨l, hl, hstep⟩
  exact ⟨l, hok a l hl, hstep⟩

/-- A condition may be traded for one that it implies in the states that are reached under it. -/
theorem Reach.mono_of_reach (hok : ∀ s l, M.Reach ok s → ok s l → ok' s l) (h : M.Reach ok s) :
    M.Reach ok' s := by
  obtain ⟨s₀, hinit, hrun⟩ := h
  induction hrun with
  | refl => exact .of_init hinit
  | tail hrun hlast ih =>
    obtain ⟨l, hl, hstep⟩ := hlast
    exact ih.tail (hok _ l ⟨s₀, hinit, hrun⟩ hl) hstep

theorem Reach.to_always (h : M.Reach ok s) : M.Reach always s := h.mono fun _ _ _ => trivial

theorem Reach.trans (h : M.Reach ok s) (hrun : M.Steps ok s t) : M.Reach ok t := by
  obtain ⟨s₀, hinit, hrun₀⟩ := h
  exact ⟨s₀, hinit, hrun₀.trans hrun⟩

theorem Steps.invariant (hstep : ∀ s l t, ok s l → M.step s l t → I s → I t)
    (h : M.Steps ok s t) (hs : I s) : I t := by
  induction h with
  | refl => exact hs
  | tail _ hlast ih =>
    obtain ⟨l, hl, hst⟩ := hlast
    exact hstep _ l _ hl hst ih

/-- What the initial states have and every admitted step keeps, every reached state has. -/
theorem Reach.invariant (hinit : ∀ s, M.init s → I s)
    (hstep : ∀ s l t, ok s l → M.step s l t → I s → I t) (h : M.Reach ok s) : I s := by
  obtain ⟨s₀, hs₀, hrun⟩ := h
  exact hrun.invariant hstep (hinit s₀ hs₀)

/-- An inductive invariant may use facts that are known of every reached state. -/
theorem Reach.invariant_with (hJ : ∀ s, M.Reach ok s → J s) (hinit : ∀ s, M.init s → I s)
    (hstep : ∀ s l t, J s → ok s l → M.step s l t → I s → I t) (h : M.Reach ok s) : I s := by
  obtain ⟨s₀, hs₀, hrun⟩ := h
  have hboth : M.Reach ok s ∧ I s := by
    induction hrun with
    | refl => exact ⟨.of_init hs₀, hinit s₀ hs₀⟩
    | tail _ hlast ih =>
      obtain ⟨l, hl, hst⟩ := hlast
      exact ⟨ih.1.tail hl hst, hstep _ l _ (hJ _ ih.1) hl hst ih.2⟩
  exact hboth.2

universe w

/-- A machine whose initial states and steps are seen as those of `M` has its runs seen as runs of
`M`. -/
theorem Reach.map {τ : Type w} {N : Machine τ L} {f : τ → σ} {p : τ}
    (h : N.Reach (fun p l => ok (f p) l) p) (hinit : ∀ p, N.init p → M.init (f p))
    (hstep : ∀ p l q, N.step p l q → M.step (f p) l (f q)) : M.Reach ok (f p) := by
  obtain ⟨p₀, hp₀, hrun⟩ := h
  refine ⟨f p₀, hinit p₀ hp₀, Relation.ReflTransGen.lift f ?_ _ _ hrun⟩
  rintro a b ⟨l, hl, hst⟩
  exact ⟨l, hl, hstep a l b hst⟩

/-! ## History -/

section History

variable {γ : Type w} (M) (g₀ : γ) (note : σ → L → γ → γ)

/-- The machine with a history that every step notes down, and that no step reads. -/
def withHistory : Machine (σ × γ) L where
  init p := M.init p.1 ∧ p.2 = g₀
  step p l q := M.step p.1 l q.1 ∧ q.2 = note p.1 l p.2

variable {M g₀ note}

theorem Reach.forget {p : σ × γ}
    (h : (M.withHistory g₀ note).Reach (fun p l => ok p.1 l) p) : M.Reach ok p.1 :=
  h.map (fun _ hp => hp.1) fun _ _ _ hstep => hstep.1

end History

/-! ## Machines that compute -/

section Compute

variable (act : σ → L → Option σ) (ok)

/-- The machine whose steps are taken by a partial function. -/
def ofAct (init : σ → Prop) : Machine σ L where
  init := init
  step s l t := act s l = some t

/-- Takes the steps one after the other, as long as `ok` admits them. -/
def runAll [∀ s l, Decidable (ok s l)] : List L → σ → Option σ
  | [], s => some s
  | l :: ls, s => if ok s l then (act s l).bind (runAll ls) else none

variable {act ok} [∀ s l, Decidable (ok s l)] {init : σ → Prop}

theorem steps_of_runAll {ls : List L} (h : runAll ok act ls s = some t) :
    (ofAct act init).Steps ok s t := by
  induction ls generalizing s with
  | nil =>
    cases h
    exact Relation.ReflTransGen.refl
  | cons l ls ih =>
    rw [runAll] at h
    split at h
    · rename_i hok
      obtain ⟨s₁, hs₁, hrest⟩ := Option.bind_eq_some_iff.mp h
      exact Relation.ReflTransGen.head ⟨l, hok, hs₁⟩ (ih hrest)
    · cases h

theorem reach_of_runAll {ls : List L} (hs : (ofAct act init).Reach ok s)
    (h : runAll ok act ls s = some t) : (ofAct act init).Reach ok t :=
  hs.trans (steps_of_runAll h)

/-- What the end of a computed run is like, some reached state is like. -/
theorem exists_reach_of_runAll {p : σ → Prop} [DecidablePred p] (ls : List L) (hs : init s)
    (h : (runAll ok act ls s).any (fun t => decide (p t)) = true) :
    ∃ t, (ofAct act init).Reach ok t ∧ p t := by
  obtain ⟨t, ht, hp⟩ := (Option.any_eq_true _ _).mp h
  exact ⟨t, reach_of_runAll (.of_init hs) ht, of_decide_eq_true hp⟩

theorem exists_steps_of_runAll {p q : σ → Prop} [DecidablePred p] [DecidablePred q]
    (ls ms : List L) (hs : init s)
    (h : (runAll ok act ls s).any (fun t => decide (p t) &&
      (runAll ok act ms t).any fun u => decide (q u)) = true) :
    ∃ t u, (ofAct act init).Reach ok t ∧ (ofAct act init).Steps ok t u ∧ p t ∧ q u := by
  obtain ⟨t, ht, h⟩ := (Option.any_eq_true _ _).mp h
  obtain ⟨hp, h⟩ := Bool.and_eq_true_iff.mp h
  obtain ⟨u, hu, hq⟩ := (Option.any_eq_true _ _).mp h
  exact ⟨t, u, reach_of_runAll (.of_init hs) ht, steps_of_runAll hu, of_decide_eq_true hp,
    of_decide_eq_true hq⟩

end Compute

end Machine
