import Mathlib.Data.List.Nodup
import NiffyInsure.Lib.Concurrent

/-!
# Tokens that change hands

Tokens are issued one after the other.  Each is kept by the shared state or held by a call, and the
steps of the calls move tokens around.

* `View.Conserved`: every token is found in as many places as it was issued times.
* `View.Balanced`: what a step has to satisfy for that; `Reach.conserved` is the run.
* `View.Conserved.eq_one`: if no token is issued twice, then each one is in one place.
* `View.Exclusive`, `Reach.exclusive`: no token is in two places, where tokens may also be dropped
  and taken again.
-/

universe u v w x y z

namespace Custody

open Concurrent

/-- Which tokens were issued, which the shared state keeps, and which a call holds. -/
structure View (σ : Type u) (P : Type v) (κ : Type w) where
  issued : σ → List κ
  kept : σ → List κ
  held : P → List κ

variable {σ : Type u} {P : Type v} {κ : Type w} [DecidableEq κ] {A : Type x} {O : Type y}
  {E : Type z} (v : View σ P κ) {s : State σ P} {p : P} {q : σ × P} {i : Nat} {k : κ}

/-- The tokens that calls hold. -/
def View.inHands (s : State σ P) : List κ := s.calls.flatMap v.held

/-- Every token is found in as many places as it was issued times. -/
def View.Conserved (s : State σ P) : Prop :=
  ∀ k, (v.issued s.shared).count k = (v.kept s.shared).count k + (v.inHands s).count k

/-- Between two states of which the first has the tokens `before` in a hand and the second the
tokens `after`, no token is lost or doubled. -/
def View.Balanced (s t : σ) (before after : List κ) : Prop :=
  ∀ k, (v.issued t).count k + (v.kept s).count k + before.count k =
    (v.issued s).count k + (v.kept t).count k + after.count k

variable {v}

theorem View.Balanced.refl (s : σ) (held : List κ) : v.Balanced s s held held := fun _ => rfl

theorem View.Balanced.of_eq {s t : σ} {before after : List κ} (hissued : v.issued t = v.issued s)
    (hkept : v.kept t = v.kept s) (hheld : after = before) : v.Balanced s t before after := by
  intro k
  rw [hissued, hkept, hheld]

theorem View.Balanced.trans {s t u : σ} {a b c : List κ} (h : v.Balanced s t a b)
    (h' : v.Balanced t u b c) : v.Balanced s u a c := by
  intro k
  have hfirst := h k
  have hsecond := h' k
  omega

theorem View.count_held_le (hp : s.calls[i]? = some p) (k : κ) :
    (v.held p).count k ≤ (v.inHands s).count k := by
  have hsub : (v.held p).Sublist (v.inHands s) := by
    obtain ⟨xs, ys, h⟩ := List.append_of_mem (List.mem_of_getElem? hp)
    rw [View.inHands, h, List.flatMap_append, List.flatMap_cons]
    exact (List.sublist_append_left ..).trans (List.sublist_append_right ..)
  exact hsub.count_le k

/-- What is in the hands after the call `i` has come to `q`. -/
theorem View.count_inHands_put (hp : s.calls[i]? = some p) (k : κ) :
    (v.inHands (s.put i q)).count k + (v.held p).count k =
      (v.inHands s).count k + (v.held q.2).count k := by
  obtain ⟨hlt, hget⟩ := List.getElem?_eq_some_iff.mp hp
  have hold : s.calls = s.calls.take i ++ p :: s.calls.drop (i + 1) := by
    rw [← hget, ← List.drop_eq_getElem_cons hlt, List.take_append_drop]
  have hnew : (s.put i q).calls = s.calls.take i ++ q.2 :: s.calls.drop (i + 1) := by
    rw [State.put, List.set_eq_take_append_cons_drop, if_pos hlt]
  have hcount : ∀ r, ((s.calls.take i ++ r :: s.calls.drop (i + 1)).flatMap v.held).count k =
      ((s.calls.take i).flatMap v.held).count k + ((v.held r).count k +
        ((s.calls.drop (i + 1)).flatMap v.held).count k) := by
    intro r
    rw [List.flatMap_append, List.count_append, List.flatMap_cons, List.count_append]
  rw [View.inHands, View.inHands, hnew, hcount]
  have hold' := congrArg (fun calls => (calls.flatMap v.held).count k) hold
  simp only [hcount] at hold'
  omega

theorem View.count_inHands_add (k : κ) :
    (v.inHands (s.add q)).count k = (v.inHands s).count k + (v.held q.2).count k := by
  rw [View.inHands, State.add, List.flatMap_append, List.count_append, List.flatMap_singleton]
  rfl

theorem View.Conserved.put (h : v.Conserved s) (hp : s.calls[i]? = some p)
    (hstep : v.Balanced s.shared q.1 (v.held p) (v.held q.2)) : v.Conserved (s.put i q) := by
  intro k
  have hbefore := h k
  have hhands := View.count_inHands_put (v := v) (q := q) hp k
  have hmoved := hstep k
  show (v.issued q.1).count k = (v.kept q.1).count k + _
  omega

theorem View.Conserved.add (h : v.Conserved s) (hstep : v.Balanced s.shared q.1 [] (v.held q.2)) :
    v.Conserved (s.add q) := by
  intro k
  have hbefore := h k
  have hhands := View.count_inHands_add (v := v) (s := s) (q := q) k
  have hmoved := hstep k
  rw [List.count_nil] at hmoved
  show (v.issued q.1).count k = (v.kept q.1).count k + _
  omega

theorem View.Conserved.around {shared : σ} (h : v.Conserved s)
    (hstep : v.Balanced s.shared shared [] []) : v.Conserved { s with shared := shared } := by
  intro k
  have hbefore := h k
  have hmoved := hstep k
  show (v.issued shared).count k = (v.kept shared).count k + (v.inHands s).count k
  omega

/-- **No token is lost or doubled** in a run in which no step does it.  The step may use that its
state was reached, and that no token was lost or doubled before. -/
theorem Reach.conserved {prog : Program σ P A O E} {init : σ → Prop}
    {ok : State σ P → Label A O E → Prop}
    (hinit : ∀ shared, init shared → v.issued shared = [] ∧ v.kept shared = [])
    (hstart : ∀ s args q, (prog.machine init).Reach ok s → v.Conserved s → ok s (.start args) →
      prog.start s.shared args = some q → v.Balanced s.shared q.1 [] (v.held q.2))
    (hnext : ∀ s i outcome p q, (prog.machine init).Reach ok s → v.Conserved s →
      ok s (.next i outcome) → s.calls[i]? = some p → prog.next s.shared p outcome = some q →
        v.Balanced s.shared q.1 (v.held p) (v.held q.2))
    (haround : ∀ s e shared, (prog.machine init).Reach ok s → v.Conserved s → ok s (.around e) →
      prog.around s.shared e = some shared → v.Balanced s.shared shared [] [])
    (h : (prog.machine init).Reach ok s) : v.Conserved s := by
  refine h.invariant_with (J := (prog.machine init).Reach ok) (I := v.Conserved)
    (fun _ hs => hs) ?_ ?_
  · rintro s ⟨hs, hnone⟩ k
    obtain ⟨hissued, hkept⟩ := hinit _ hs
    rw [hissued, hkept, View.inHands, hnone]
    rfl
  · rintro s l t hreach hl hstep hs
    rcases step_cases hstep with ⟨args, q, rfl, hq, rfl⟩ | ⟨i, outcome, p, q, rfl, hp, hq, rfl⟩ |
      ⟨e, shared, rfl, he, rfl⟩
    · exact hs.add (hstart s args q hreach hs hl hq)
    · exact hs.put hp (hnext s i outcome p q hreach hs hl hp hq)
    · exact hs.around (haround s e shared hreach hs hl he)

/-- A token that a call holds is nowhere else. -/
theorem View.Conserved.count_kept_eq_zero (h : v.Conserved s) (hnodup : (v.issued s.shared).Nodup)
    (hp : s.calls[i]? = some p) (hk : k ∈ v.held p) : (v.kept s.shared).count k = 0 := by
  have hheld := View.count_held_le (v := v) hp k
  have hpos := List.count_pos_iff.mpr hk
  have hall := h k
  have hone := List.nodup_iff_count_le_one.mp hnodup k
  omega

/-- A token that was issued once is in one place. -/
theorem View.Conserved.eq_one (h : v.Conserved s) (hnodup : (v.issued s.shared).Nodup)
    (hk : k ∈ v.issued s.shared) :
    (v.kept s.shared).count k + (v.inHands s).count k = 1 := by
  rw [← h k]
  exact List.count_eq_one_of_mem hnodup hk

/-- Where each entry of a list issues tokens under its own key, a token of one entry is issued as
often as that entry issues it. -/
theorem count_flatMap_of_nodup {α : Type u} {ι : Type v} {entries : List α} {key : α → ι}
    {issue : α → List κ} {a : α} (hkeys : (entries.map key).Nodup) (ha : a ∈ entries)
    (hown : ∀ b, key b ≠ key a → k ∉ issue b) :
    (entries.flatMap issue).count k = (issue a).count k := by
  induction entries with
  | nil => cases ha
  | cons b rest ih =>
    rw [List.map_cons, List.nodup_cons] at hkeys
    rw [List.flatMap_cons, List.count_append]
    obtain rfl | ha := List.mem_cons.mp ha
    · have hrest : k ∉ rest.flatMap issue := by
        intro hmem
        obtain ⟨b, hb, hk⟩ := List.mem_flatMap.mp hmem
        exact hown b (fun heq => hkeys.1 (heq ▸ List.mem_map_of_mem hb)) hk
      rw [List.count_eq_zero_of_not_mem hrest, Nat.add_zero]
    · have hb : k ∉ issue b := hown b fun heq => hkeys.1 (heq ▸ List.mem_map_of_mem ha)
      rw [List.count_eq_zero_of_not_mem hb, Nat.zero_add, ih hkeys.2 ha]

/-! ## Tokens that are in one place at most -/

/-- No token is kept twice, held twice, or both. -/
def View.Exclusive (v : View σ P κ) (s : State σ P) : Prop :=
  ∀ k, (v.kept s.shared).count k + (v.inHands s).count k ≤ 1

/-- A step that keeps tokens in one place: of each one there is no more than before, or there was
none anywhere. -/
def View.Exclusively (v : View σ P κ) (s : State σ P) (t : σ) (before after : List κ) : Prop :=
  ∀ k, (v.kept t).count k + after.count k ≤ (v.kept s.shared).count k + before.count k ∨
    (v.kept s.shared).count k + (v.inHands s).count k = 0 ∧
      (v.kept t).count k + after.count k ≤ 1

theorem View.Exclusively.of_le {t : σ} {before after : List κ}
    (h : ∀ k, (v.kept t).count k + after.count k ≤ (v.kept s.shared).count k + before.count k) :
    v.Exclusively s t before after := fun k => .inl (h k)

theorem View.Exclusive.put (h : v.Exclusive s) (hp : s.calls[i]? = some p)
    (hstep : v.Exclusively s q.1 (v.held p) (v.held q.2)) : v.Exclusive (s.put i q) := by
  intro k
  have hbefore := h k
  have hhands := View.count_inHands_put (v := v) (q := q) hp k
  have hheld := View.count_held_le (v := v) hp k
  show (v.kept q.1).count k + _ ≤ 1
  rcases hstep k with hle | ⟨hnone, hone⟩
  · omega
  · omega

theorem View.Exclusive.add (h : v.Exclusive s)
    (hstep : v.Exclusively s q.1 [] (v.held q.2)) : v.Exclusive (s.add q) := by
  intro k
  have hbefore := h k
  have hhands := View.count_inHands_add (v := v) (s := s) (q := q) k
  show (v.kept q.1).count k + _ ≤ 1
  rcases hstep k with hle | ⟨hnone, hone⟩
  · rw [List.count_nil] at hle
    omega
  · omega

/-- **No token is in two places** in a run in which no step puts it there. -/
theorem Reach.exclusive {prog : Program σ P A O E} {init : σ → Prop}
    {ok : State σ P → Label A O E → Prop} (hinit : ∀ shared, init shared → v.kept shared = [])
    (hstart : ∀ s args q, (prog.machine init).Reach ok s → ok s (.start args) →
      prog.start s.shared args = some q → v.Exclusively s q.1 [] (v.held q.2))
    (hnext : ∀ s i outcome p q, (prog.machine init).Reach ok s → ok s (.next i outcome) →
      s.calls[i]? = some p → prog.next s.shared p outcome = some q →
        v.Exclusively s q.1 (v.held p) (v.held q.2))
    (haround : ∀ s e shared, (prog.machine init).Reach ok s → ok s (.around e) →
      prog.around s.shared e = some shared → v.kept shared = v.kept s.shared)
    (h : (prog.machine init).Reach ok s) : v.Exclusive s := by
  refine h.invariant_with (J := (prog.machine init).Reach ok) (I := v.Exclusive)
    (fun _ hs => hs) ?_ ?_
  · rintro s ⟨hs, hnone⟩ k
    rw [hinit _ hs, View.inHands, hnone]
    exact Nat.zero_le 1
  · rintro s l t hreach hl hstep hs
    rcases step_cases hstep with ⟨args, q, rfl, hq, rfl⟩ | ⟨i, outcome, p, q, rfl, hp, hq, rfl⟩ |
      ⟨e, shared, rfl, he, rfl⟩
    · exact hs.add (hstart s args q hreach hl hq)
    · exact hs.put hp (hnext s i outcome p q hreach hl hp hq)
    · intro k
      show (v.kept shared).count k + (v.inHands s).count k ≤ 1
      rw [haround s e shared hreach hl he]
      exact hs k

end Custody
