import NiffyInsure.Lib.Machine

/-!
# Traces

The trace of a run is the list of its moves: the state before, the label, the state after.
A statement about what happened before, how often, or in which order is a statement about the
trace.

* `traced`: the machine with its trace beside the state.
* `Reach.trace_invariant`: what the empty trace has and every admitted move keeps.
* `Reach.trace_split`, `Reach.step_of_mem`: every move of a trace was made in a run of its own.
* `Reach.trace_rest`: what a move establishes and the moves after it keep, the state at the end has.
* `Reach.untrace`, `Reach.exists_trace`: the traced machine has the same runs.
* `exists_of_followTraced`: executing a list of labels gives a run with its trace.
* `Latest`: the latest move of a kind, with what came after it.
-/

universe u v

namespace Machine

/-- One step of a run. -/
structure Move (σ : Type u) (L : Type v) where
  before : σ
  label : L
  after : σ

/-- The machine with the trace of its run. -/
def traced {σ : Type u} {L : Type v} (M : Machine σ L) : Machine (σ × List (Move σ L)) L where
  init p := M.init p.1 ∧ p.2 = []
  step p l q := M.step p.1 l q.1 ∧ q.2 = p.2 ++ [⟨p.1, l, q.1⟩]

section Traced

variable {σ : Type u} {L : Type v} {M : Machine σ L} {ok : σ → L → Prop} {s : σ}
  {g : List (Move σ L)}

theorem Reach.untrace {p : σ × List (Move σ L)}
    (h : M.traced.Reach (fun p l => ok p.1 l) p) : M.Reach ok p.1 :=
  h.map (fun _ hp => hp.1) fun _ _ _ hstep => hstep.1

theorem Reach.exists_trace (h : M.Reach ok s) :
    ∃ g, M.traced.Reach (fun p l => ok p.1 l) (s, g) := by
  obtain ⟨s₀, hinit, hrun⟩ := h
  induction hrun with
  | refl => exact ⟨[], .of_init ⟨hinit, rfl⟩⟩
  | tail _ hlast ih =>
    obtain ⟨g, hg⟩ := ih
    obtain ⟨l, hl, hstep⟩ := hlast
    exact ⟨g ++ [⟨_, l, _⟩], hg.tail hl ⟨hstep, rfl⟩⟩

/-- What the empty trace has and every admitted move keeps, every trace has.  The step may use
that its state was reached. -/
theorem Reach.trace_invariant {I : σ → List (Move σ L) → Prop}
    (hinit : ∀ s, M.init s → I s [])
    (hstep : ∀ s g l t, M.Reach ok s → ok s l → M.step s l t → I s g → I t (g ++ [⟨s, l, t⟩]))
    (h : M.traced.Reach (fun p l => ok p.1 l) (s, g)) : I s g := by
  have hall : ∀ p, M.traced.Reach (fun p l => ok p.1 l) p → I p.1 p.2 := by
    intro p hp
    refine hp.invariant_with (J := fun p => M.Reach ok p.1) (I := fun p => I p.1 p.2)
      (fun _ => Reach.untrace) ?_ ?_
    · rintro ⟨s, g⟩ ⟨hs, hg⟩
      change g = [] at hg
      subst hg
      exact hinit s hs
    · rintro ⟨s, g⟩ l ⟨t, g'⟩ hreach hl ⟨hst, hg⟩ hI
      change g' = g ++ [⟨s, l, t⟩] at hg
      subst hg
      exact hstep s g l t hreach hl hst hI
  exact hall (s, g) h

/-- **Every move of a trace was made in a run** whose trace is what comes before it. -/
theorem Reach.trace_split {g₁ g₂ : List (Move σ L)} {m : Move σ L}
    (h : M.traced.Reach (fun p l => ok p.1 l) (s, g₁ ++ m :: g₂)) :
    M.traced.Reach (fun p l => ok p.1 l) (m.before, g₁) ∧ ok m.before m.label ∧
      M.step m.before m.label m.after := by
  have hall : ∀ p, M.traced.Reach (fun p l => ok p.1 l) p → ∀ g₁ m g₂, p.2 = g₁ ++ m :: g₂ →
      M.traced.Reach (fun p l => ok p.1 l) (m.before, g₁) ∧ ok m.before m.label ∧
        M.step m.before m.label m.after := by
    intro p hp
    refine hp.invariant_with (J := M.traced.Reach fun p l => ok p.1 l)
      (I := fun p => ∀ g₁ m g₂, p.2 = g₁ ++ m :: g₂ →
        M.traced.Reach (fun p l => ok p.1 l) (m.before, g₁) ∧ ok m.before m.label ∧
          M.step m.before m.label m.after) (fun _ hq => hq) ?_ ?_
    · rintro ⟨s, g⟩ ⟨-, hg⟩ g₁ m g₂ heq
      change g = [] at hg
      subst hg
      exact absurd heq (by simp)
    · rintro ⟨s, g⟩ l ⟨t, g'⟩ hreach hl ⟨hst, hg⟩ hI g₁ m g₂ heq
      change g' = g ++ [⟨s, l, t⟩] at hg
      change g' = g₁ ++ m :: g₂ at heq
      subst hg
      rcases List.eq_nil_or_concat g₂ with rfl | ⟨g₃, x, rfl⟩
      · obtain ⟨rfl, hm⟩ := List.append_inj' heq rfl
        cases hm
        exact ⟨hreach, hl, hst⟩
      · rw [List.concat_eq_append, ← List.cons_append, ← List.append_assoc] at heq
        exact hI g₁ m g₃ (List.append_inj' heq rfl).1
  exact hall (s, g₁ ++ m :: g₂) h g₁ m g₂ rfl

theorem Reach.step_of_mem (h : M.traced.Reach (fun p l => ok p.1 l) (s, g)) {m : Move σ L}
    (hm : m ∈ g) : M.step m.before m.label m.after := by
  obtain ⟨g₁, g₂, rfl⟩ := List.append_of_mem hm
  exact h.trace_split.2.2

/-- **What a move establishes and the moves after it keep**, the state at the end has. -/
theorem Reach.trace_rest {P : σ → Prop} {g₁ g₂ : List (Move σ L)} {m : Move σ L}
    (h : M.traced.Reach (fun p l => ok p.1 l) (s, g₁ ++ m :: g₂)) (hm : P m.after)
    (hkeep : ∀ m' ∈ g₂, M.step m'.before m'.label m'.after → P m'.before → P m'.after) : P s := by
  have hall := h.trace_invariant (I := fun s g => ∀ g₂, g = g₁ ++ m :: g₂ →
    (∀ m' ∈ g₂, M.step m'.before m'.label m'.after → P m'.before → P m'.after) → P s) ?_ ?_
  · exact hall g₂ rfl hkeep
  · intro s _ g₂ heq
    exact absurd heq (by simp)
  · intro s g l t _ _ hstep ih g₂ heq hkeep
    rcases List.eq_nil_or_concat g₂ with rfl | ⟨g₃, x, rfl⟩
    · obtain ⟨-, hlast⟩ := List.append_inj' heq rfl
      cases hlast
      exact hm
    · rw [List.concat_eq_append, ← List.cons_append, ← List.append_assoc] at heq
      obtain ⟨rfl, hlast⟩ := List.append_inj' heq rfl
      cases hlast
      have hbefore := ih g₃ rfl fun m' hm' => hkeep m' (by simp [hm'])
      exact hkeep ⟨s, l, t⟩ (by simp) hstep hbefore

end Traced

/-! ## Executing labels -/

section Execute

variable {σ : Type u} {L : Type v} {M : Machine σ L} {ok : σ → L → Prop}
  (take : σ → L → Option σ) (check : σ → L → Bool)

/-- Execute a list of labels that pass the check, and keep the trace. -/
def followTraced : σ × List (Move σ L) → List L → Option (σ × List (Move σ L))
  | p, [] => some p
  | p, l :: rest =>
    if check p.1 l then (take p.1 l).bind fun t => followTraced (t, p.2 ++ [⟨p.1, l, t⟩]) rest
    else none

variable {take check}

theorem reach_of_followTraced (hcheck : ∀ s l, check s l = true → ok s l)
    {q : σ × List (Move σ L)} :
    ∀ (labels : List L) (p : σ × List (Move σ L)), M.traced.Reach (fun p l => ok p.1 l) p →
      (∀ l ∈ labels, ∀ s t, take s l = some t → M.step s l t) →
      followTraced take check p labels = some q → M.traced.Reach (fun p l => ok p.1 l) q := by
  intro labels
  induction labels with
  | nil =>
    intro p hp _ h
    cases h
    exact hp
  | cons l rest ih =>
    intro p hp htake h
    unfold followTraced at h
    split at h
    · rename_i hl
      obtain ⟨t, ht, h⟩ := Option.bind_eq_some_iff.mp h
      have hstep : M.traced.step p l (t, p.2 ++ [⟨p.1, l, t⟩]) := ⟨htake l (by simp) _ _ ht, rfl⟩
      exact ih _ (hp.tail (hcheck p.1 l hl) hstep) (fun l' hl' => htake l' (by simp [hl'])) h
    · cases h

/-- Execute `labels` from an initial state, and read `f` off the end. -/
theorem exists_of_followTraced (take : σ → L → Option σ) {α : Type*}
    {f : σ × List (Move σ L) → α} {a : α} (hcheck : ∀ s l, check s l = true → ok s l) (s₀ : σ)
    (labels : List L) (hinit : M.init s₀)
    (htake : ∀ l ∈ labels, ∀ s t, take s l = some t → M.step s l t)
    (h : (followTraced take check (s₀, []) labels).map f = some a) :
    ∃ s g, M.traced.Reach (fun p l => ok p.1 l) (s, g) ∧ f (s, g) = a := by
  obtain ⟨⟨s, g⟩, hrun, hval⟩ := Option.map_eq_some_iff.mp h
  exact ⟨s, g, reach_of_followTraced hcheck labels (s₀, []) (.of_init ⟨hinit, rfl⟩) htake hrun,
    hval⟩

end Execute

/-! ## The latest move of a kind -/

section Latest

variable {α : Type u} {p : α → Prop} {g : List α} {x y : α}

/-- `x` is the latest entry of `g` that is not followed by one with `p`. -/
def Latest (p : α → Prop) (x : α) (g : List α) : Prop :=
  ∃ g₁ g₂, g = g₁ ++ x :: g₂ ∧ ∀ y ∈ g₂, ¬ p y

theorem Latest.new (p : α → Prop) (x : α) (g : List α) : Latest p x (g ++ [x]) :=
  ⟨g, [], rfl, fun _ hy => absurd hy List.not_mem_nil⟩

theorem Latest.append (h : Latest p x g) (hy : ¬ p y) : Latest p x (g ++ [y]) := by
  obtain ⟨g₁, g₂, rfl, hafter⟩ := h
  refine ⟨g₁, g₂ ++ [y], by simp, ?_⟩
  intro z hz
  rcases List.mem_append.mp hz with hz | hz
  · exact hafter z hz
  · rw [List.mem_singleton.mp hz]
    exact hy

end Latest

end Machine
