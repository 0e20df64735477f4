import Mathlib.Logic.Relation
import Mathlib.Data.Finset.Card
import Mathlib.Logic.Function.Basic

/-!
# Following pointers

A partial function `next : α → Option α` is a graph with at most one edge out of each
point.  `walk` follows it from a point, remembering the points it has seen, until it
comes to a point without an edge or back to one it has seen.

* `Acyclic next`: no point leads back to itself.  Dropping edges keeps it
  (`Acyclic.mono`), and redirecting one point keeps it exactly when the new target does
  not lead back there (`Acyclic.update`).
* `walk_ne_outOfFuel`: one unit of fuel more than there are points with an edge is
  always enough.
* `walk_eq_stop`, `walk_eq_cycle`, `walk_ne_cycle`: where a walk stops, and that it reports a
  cycle only if there is one.
* `Leads.not_cycle`, `Leads.end_unique`: a point leads to one end at most, and then to no cycle.
-/

namespace PointerChain

open Relation

variable {α : Type*} {next next' : α → Option α}

/-- The edge out of `a` goes to `b`. -/
def Edge (next : α → Option α) (a b : α) : Prop := next a = some b

/-- Following edges from `a` comes by `b`. -/
def Leads (next : α → Option α) : α → α → Prop := ReflTransGen (Edge next)

/-- No point leads back to itself. -/
def Acyclic (next : α → Option α) : Prop := ∀ a, ¬ TransGen (Edge next) a a

theorem Acyclic.mono (h : Acyclic next) (hsub : ∀ a b, next' a = some b → next a = some b) :
    Acyclic next' := by
  intro a hc
  exact h a (TransGen.mono (fun x y hxy => hsub x y hxy) a a hc)

/-! ## Redirecting one point -/

section Update

variable [DecidableEq α]

/-- A path after `d` was redirected to `t` is an old path, or an old path to `d`
followed by one from `t`. -/
theorem leads_update {d t x y : α} (h : Leads (Function.update next d (some t)) x y) :
    Leads next x y ∨ (Leads next x d ∧ Leads next t y) := by
  induction h using ReflTransGen.head_induction_on with
  | refl => exact .inl ReflTransGen.refl
  | @head a b hab _ ih =>
    unfold Edge at hab
    by_cases had : a = d
    · subst had
      rw [Function.update_self] at hab
      cases hab
      rcases ih with ih | ih
      · exact .inr ⟨ReflTransGen.refl, ih⟩
      · exact .inr ⟨ReflTransGen.refl, ih.2⟩
    · rw [Function.update_of_ne had] at hab
      rcases ih with ih | ih
      · exact .inl (ReflTransGen.head hab ih)
      · exact .inr ⟨ReflTransGen.head hab ih.1, ih.2⟩

/-- Redirecting `d` to a point that does not lead back to `d` closes no cycle. -/
theorem Acyclic.update {d t : α} (h : Acyclic next) (hd : ¬ Leads next t d) :
    Acyclic (Function.update next d (some t)) := by
  intro a hc
  obtain ⟨b, hab, hba⟩ := TransGen.head'_iff.mp hc
  have hab' : Function.update next d (some t) a = some b := hab
  by_cases had : a = d
  · subst had
    rw [Function.update_self] at hab'
    cases hab'
    rcases leads_update hba with h' | h'
    · exact hd h'
    · exact hd h'.1
  · rw [Function.update_of_ne had] at hab'
    rcases leads_update hba with h' | h'
    · exact h a (TransGen.head' hab' h')
    · exact hd (h'.2.trans (ReflTransGen.head hab' h'.1))

end Update

/-! ## Walking -/

section Walk

variable [DecidableEq α]

/-- How a walk ends. -/
inductive Outcome (α : Type*) where
  | stop (a : α)
  | cycle
  | outOfFuel

/-- Follow `next` from `a`, for at most `fuel` points. -/
def walk (next : α → Option α) : Nat → List α → α → Outcome α
  | 0, _, _ => .outOfFuel
  | fuel + 1, seen, a =>
    if a ∈ seen then .cycle
    else match next a with
      | none => .stop a
      | some b => walk next fuel (a :: seen) b

theorem walk_ne_outOfFuel {S : Finset α} (hS : ∀ a b, next a = some b → a ∈ S) :
    ∀ (fuel : Nat) (seen : List α) (a : α), seen.Nodup → (∀ x ∈ seen, x ∈ S) →
      S.card < fuel + seen.length → walk next fuel seen a ≠ .outOfFuel := by
  intro fuel
  induction fuel with
  | zero =>
    intro seen a hnd hsub hlt
    have hle : seen.length ≤ S.card := by
      rw [← List.toFinset_card_of_nodup hnd]
      exact Finset.card_le_card fun x hx => hsub x (List.mem_toFinset.mp hx)
    omega
  | succ fuel ih =>
    intro seen a hnd hsub hlt
    unfold walk
    split
    · simp
    · rename_i hmem
      cases hn : next a with
      | none => simp
      | some b =>
        refine ih (a :: seen) b (List.nodup_cons.mpr ⟨hmem, hnd⟩) ?_ ?_
        · intro x hx
          rcases List.mem_cons.mp hx with rfl | hx
          · exact hS x b hn
          · exact hsub x hx
        · simp only [List.length_cons]
          omega

theorem walk_eq_stop {b : α} :
    ∀ (fuel : Nat) (seen : List α) (a : α), walk next fuel seen a = .stop b →
      Leads next a b ∧ next b = none := by
  intro fuel
  induction fuel with
  | zero =>
    intro seen a h
    cases h
  | succ fuel ih =>
    intro seen a h
    unfold walk at h
    split at h
    · cases h
    · cases hn : next a with
      | none =>
        rw [hn] at h
        cases h
        exact ⟨ReflTransGen.refl, hn⟩
      | some c =>
        rw [hn] at h
        obtain ⟨hc, hb⟩ := ih _ _ h
        exact ⟨ReflTransGen.head hn hc, hb⟩

theorem walk_eq_cycle :
    ∀ (fuel : Nat) (seen : List α) (a : α), (∀ x ∈ seen, TransGen (Edge next) x a) →
      walk next fuel seen a = .cycle → ∃ c, Leads next a c ∧ TransGen (Edge next) c c := by
  intro fuel
  induction fuel with
  | zero =>
    intro seen a _ h
    cases h
  | succ fuel ih =>
    intro seen a hseen h
    unfold walk at h
    split at h
    · rename_i hmem
      exact ⟨a, ReflTransGen.refl, hseen a hmem⟩
    · cases hn : next a with
      | none =>
        rw [hn] at h
        cases h
      | some b =>
        rw [hn] at h
        have hseen' : ∀ x ∈ a :: seen, TransGen (Edge next) x b := by
          intro x hx
          rcases List.mem_cons.mp hx with rfl | hx
          · exact TransGen.single hn
          · exact (hseen x hx).tail hn
        obtain ⟨c, hbc, hc⟩ := ih (a :: seen) b hseen' h
        exact ⟨c, ReflTransGen.head hn hbc, hc⟩

/-- In an acyclic graph a walk does not come back to a point it has seen. -/
theorem walk_ne_cycle (hac : Acyclic next) (fuel : Nat) (seen : List α) (a : α)
    (hseen : ∀ x ∈ seen, TransGen (Edge next) x a) : walk next fuel seen a ≠ .cycle := by
  intro h
  obtain ⟨c, -, hc⟩ := walk_eq_cycle fuel seen a hseen h
  exact hac c hc

theorem walk_add {r : Outcome α} (hr : r ≠ .outOfFuel) (more : Nat) :
    ∀ (fuel : Nat) (seen : List α) (a : α), walk next fuel seen a = r →
      walk next (fuel + more) seen a = r := by
  intro fuel
  induction fuel with
  | zero =>
    intro seen a h
    exact absurd h.symm hr
  | succ fuel ih =>
    intro seen a h
    rw [Nat.add_right_comm]
    unfold walk at h ⊢
    split
    · rename_i hmem
      rwa [if_pos hmem] at h
    · rename_i hmem
      rw [if_neg hmem] at h
      cases hn : next a with
      | none => rwa [hn] at h
      | some b =>
        rw [hn] at h
        exact ih (a :: seen) b h

end Walk

/-! ## Ends and cycles -/

section Ends

variable {a b c : α}

theorem rightUnique_edge (next : α → Option α) : Relator.RightUnique (Edge next) := by
  intro x y z hy hz
  exact Option.some.inj (hy.symm.trans hz)

theorem cycle_of_leads (hc : TransGen (Edge next) c c) (h : Leads next c b) :
    TransGen (Edge next) b b := by
  induction h with
  | refl => exact hc
  | @tail x y _ hxy ih =>
    obtain ⟨z, hxz, hzx⟩ := TransGen.head'_iff.mp ih
    cases rightUnique_edge next hxy hxz
    exact TransGen.tail' hzx hxy

theorem leads_end (hb : next b = none) (h : Leads next b c) : c = b := by
  cases ReflTransGen.cases_head h with
  | inl heq => exact heq.symm
  | inr hstep =>
    obtain ⟨d, hbd, -⟩ := hstep
    cases hb.symm.trans hbd

/-- **A point that leads to an end leads to no cycle.** -/
theorem Leads.not_cycle (h : Leads next a b) (hb : next b = none) (hc : Leads next a c) :
    ¬ TransGen (Edge next) c c := by
  intro hcycle
  have hbb : TransGen (Edge next) b b := by
    cases ReflTransGen.total_of_right_unique (rightUnique_edge next) h hc with
    | inl hbc => rwa [leads_end hb hbc] at hcycle
    | inr hcb => exact cycle_of_leads hcycle hcb
  obtain ⟨d, hbd, -⟩ := TransGen.head'_iff.mp hbb
  cases hb.symm.trans hbd

/-- **A point leads to at most one end.** -/
theorem Leads.end_unique (h : Leads next a b) (hb : next b = none) (h' : Leads next a c)
    (hc : next c = none) : b = c := by
  cases ReflTransGen.total_of_right_unique (rightUnique_edge next) h h' with
  | inl hbc => exact (leads_end hb hbc).symm
  | inr hcb => exact leads_end hc hcb

end Ends

end PointerChain
