import Mathlib.Logic.Function.Iterate
import NiffyInsure.Lib.CheckThenAct

/-!
# Answers kept for a repeated request

A service looks under a key that it computes from the request whether it has an answer, replays it
if so, and runs the request otherwise, to keep its answer under the key.  The look, the run and the
keeping are separate steps of a call.

* `next_cases`: what one step does.
* `Reach.once`: of the requests that belong together one runs, and a replayed answer is that of a
  run of the same request, if no request looks while another one that belongs with it is about to
  run or to keep its answer, and requests with one key are the same.
-/

universe u v w x y z

namespace ReplayCache

open CheckThenAct Concurrent

/-- What a service does with a request. -/
structure Service (R : Type u) (κ : Type v) (ι : Type w) (α : Type x) (ε : Type y)
    (O : Type z) where
  /-- The key to look under, if any, unless the request is refused. -/
  accept : R → Except ε (Option κ)
  run : R → O → Except ε α
  /-- The answer is one of those of which there is to be one only. -/
  counts : α → Bool
  keeps : α → Bool
  /-- An answer that is found is written back, with `touch`. -/
  touches : Bool
  touch : α → α
  /-- What the requests have in common of which one is to run. -/
  ident : R → Option ι
  keyOf : ι → κ
  keyOf_ident : ∀ {r i k}, ident r = some i → accept r = .ok k → k = some (keyOf i)
  /-- The request may be answered as the other one was. -/
  Same : R → R → Prop

variable {R : Type u} {κ : Type v} {ι : Type w} {α : Type x} {ε : Type y} {O : Type z}

/-- The answers that are kept, each with the request that it was kept for (which is not kept with
it), and the runs. -/
structure State (R : Type u) (κ : Type v) (α : Type x) where
  entries : κ → Option (α × R)
  runs : List (R × α)

inductive Call (R : Type u) (κ : Type v) (α : Type x) (ε : Type y) where
  | look (r : R) (k : κ)
  | run (r : R) (k : Option κ)
  | keep (r : R) (k : κ) (a : α)
  /-- The answer `a`, kept for `r'`, is written back. -/
  | touch (r : R) (k : κ) (a : α) (r' : R)
  | replied (r : R) (a : α)
  | answered (r : R) (a : α)
  | refused (r : R) (e : ε)
  deriving DecidableEq

/-- The store answers or fails; what running the request depends on. -/
inductive Outcome (O : Type z) where
  | ok
  | error
  | result (o : O)

variable (service : Service R κ ι α ε O)

/-- How a call goes on whose request has run. -/
def Service.after (r : R) (k : Option κ) (a : α) : Call R κ α ε :=
  match k with
  | some k => if service.keeps a then .keep r k a else .answered r a
  | none => .answered r a

/-- The next step of a call.  A look that fails finds nothing. -/
def Service.next [DecidableEq κ] (s : State R κ α) :
    Call R κ α ε → Outcome O → Option (State R κ α × Call R κ α ε)
  | .look r k, .ok =>
    match s.entries k with
    | some (a, r') => if service.touches then some (s, .touch r k (service.touch a) r')
      else some (s, .replied r a)
    | none => some (s, .run r (some k))
  | .look r k, .error => some (s, .run r (some k))
  | .run r k, .result o =>
    match service.run r o with
    | .ok a => some ({ s with runs := s.runs ++ [(r, a)] }, service.after r k a)
    | .error e => some (s, .refused r e)
  | .keep r k a, .ok =>
    some ({ s with entries := Function.update s.entries k (some (a, r)) }, .answered r a)
  | .keep r _ a, .error => some (s, .answered r a)
  | .touch r k a r', .ok =>
    some ({ s with entries := Function.update s.entries k (some (a, r')) }, .replied r a)
  | .touch r _ a _, .error => some (s, .replied r a)
  | _, _ => none

def Service.start (s : State R κ α) (r : R) : Option (State R κ α × Call R κ α ε) :=
  match service.accept r with
  | .ok (some k) => some (s, .look r k)
  | .ok none => some (s, .run r none)
  | .error e => some (s, .refused r e)

def Service.program [DecidableEq κ] :
    Program (State R κ α) (Call R κ α ε) R (Outcome O) Empty where
  start := service.start
  next := service.next
  around _ e := e.elim

/-- Nothing was kept yet. -/
def State.fresh : State R κ α := ⟨fun _ => none, []⟩

def Service.machine [DecidableEq κ] :
    Machine (Concurrent.State (State R κ α) (Call R κ α ε)) (Label R (Outcome O) Empty) :=
  service.program.machine (· = .fresh)

/-! ## The condition -/

/-- What a run that counts has in common with others. -/
def Service.counted (run : R × α) : Option ι :=
  if service.counts run.2 then service.ident run.1 else none

def Service.log (s : State R κ α) : List ι := s.runs.filterMap service.counted

/-- A request is in hand from when it has found nothing until its answer is kept. -/
def Service.view : View (State R κ α) (Call R κ α ε) ι where
  closed s i := (s.entries (service.keyOf i)).isSome
  log := service.log
  inHand
    | .run r (some _) => (service.ident r).map (·, false)
    | .keep r _ a => if service.counts a then (service.ident r).map (·, true) else none
    | _ => none

/-- Requests with one key may be answered alike. -/
def Service.SameOfKey (requests : List R) : Prop :=
  ∀ r ∈ requests, ∀ r' ∈ requests, ∀ k, service.accept r = .ok (some k) →
    service.accept r' = .ok (some k) → service.Same r r'

/-- If nothing is found (or the look fails), nothing is kept and no request that belongs with this
one is in hand; and an answer that counts is kept. -/
def Service.Undisturbed (s : Concurrent.State (State R κ α) (Call R κ α ε)) :
    Call R κ α ε → Outcome O → Prop
  | .look r k, .ok =>
    (s.shared.entries k).isNone → ∀ i ∈ service.ident r, service.view.Free s i
  | .look r k, .error =>
    ∀ i ∈ service.ident r, (s.shared.entries k).isNone ∧ service.view.Free s i
  | .run r _, .result o =>
    match service.run r o with
    | .ok a => (service.ident r).isSome → service.counts a → service.keeps a
    | .error _ => True
  | .keep r _ a, .error => ¬ ((service.ident r).isSome ∧ service.counts a)
  | _, _ => True

instance [DecidableEq ι] (s : Concurrent.State (State R κ α) (Call R κ α ε)) (p : Call R κ α ε)
    (outcome : Outcome O) : Decidable (service.Undisturbed s p outcome) := by
  unfold Service.Undisturbed
  split
  · infer_instance
  · infer_instance
  · split <;> infer_instance
  · infer_instance
  · infer_instance

/-- The call that starts has one of the requests, and the one that takes the step is undisturbed. -/
def Service.Clear (requests : List R) (s : Concurrent.State (State R κ α) (Call R κ α ε)) :
    Label R (Outcome O) Empty → Prop
  | .start r => r ∈ requests
  | .next i outcome => ∀ p ∈ s.calls[i]?, service.Undisturbed s p outcome
  | .around _ => True

instance [DecidableEq R] [DecidableEq ι] (requests : List R)
    (s : Concurrent.State (State R κ α) (Call R κ α ε)) (l : Label R (Outcome O) Empty) :
    Decidable (service.Clear requests s l) :=
  match l with
  | .start r => inferInstanceAs (Decidable (r ∈ requests))
  | .next i outcome =>
    inferInstanceAs (Decidable (∀ p ∈ s.calls[i]?, service.Undisturbed s p outcome))
  | .around _ => inferInstanceAs (Decidable True)

variable {service} {requests : List R} {s : Concurrent.State (State R κ α) (Call R κ α ε)}
  {shared : State R κ α} {p : Call R κ α ε} {q : State R κ α × Call R κ α ε} {outcome : Outcome O}
  {r : R} {a : α}

/-! ## A call -/

/-- The answer was written back some times. -/
def Service.Touched (service : Service R κ ι α ε O) (a₀ a : α) : Prop :=
  ∃ n, a = service.touch^[n] a₀

/-- The request is one of these, and has this key, if any. -/
def Service.Has (service : Service R κ ι α ε O) (requests : List R) (r : R) (k : Option κ) : Prop :=
  r ∈ requests ∧ service.accept r = .ok k

/-- What holds of a call: it looks under its key, the answer that it keeps or gives is that of its
run, and one that it replays is that of a run of the same request. -/
def Service.CallSound (service : Service R κ ι α ε O) (requests : List R) (s : State R κ α) :
    Call R κ α ε → Prop
  | .look r k => service.Has requests r (some k)
  | .run r k => service.Has requests r k
  | .keep r k a => service.Has requests r (some k) ∧ (r, a) ∈ s.runs
  | .touch r k a r' => service.Has requests r' (some k) ∧ service.Same r r' ∧
    ∃ a₀, (r', a₀) ∈ s.runs ∧ service.Touched a₀ a
  | .replied r a => ∃ run ∈ s.runs, service.Same r run.1 ∧ service.Touched run.2 a
  | .answered r a => (r, a) ∈ s.runs
  | .refused _ _ => True

theorem Service.CallSound.mono {s t : State R κ α} (h : service.CallSound requests s p)
    (hruns : s.runs ⊆ t.runs) : service.CallSound requests t p := by
  cases p with
  | look r k => exact h
  | run r k => exact h
  | keep r k a => exact ⟨h.1, hruns h.2⟩
  | touch r k a r' =>
    obtain ⟨hkey, hsame, a₀, hrun, htouched⟩ := h
    exact ⟨hkey, hsame, a₀, hruns hrun, htouched⟩
  | replied r a =>
    obtain ⟨run, hrun, hrest⟩ := h
    exact ⟨run, hruns hrun, hrest⟩
  | answered r a => exact hruns h
  | refused r e => trivial

/-- What is kept under a key is the answer of a run of a request with this key. -/
def Service.Sound (service : Service R κ ι α ε O) (requests : List R) (s : State R κ α) : Prop :=
  ∀ k a r, s.entries k = some (a, r) → service.Has requests r (some k) ∧
    ∃ a₀, (r, a₀) ∈ s.runs ∧ service.Touched a₀ a

variable (service) in
theorem log_append (shared : State R κ α) (run : R × α) :
    service.log { shared with runs := shared.runs ++ [run] } =
      service.log shared ++ (service.counted run).toList := by
  rw [Service.log, List.filterMap_append]
  cases hrun : service.counted run with
  | none => rw [List.filterMap_cons_none hrun]; rfl
  | some i => rw [List.filterMap_cons_some hrun]; rfl

theorem keyOf_of_accept {i : ι} {k : κ} (hident : service.ident r = some i)
    (haccept : service.accept r = .ok (some k)) : k = service.keyOf i :=
  Option.some.inj (service.keyOf_ident hident haccept)

theorem ident_of_accept_none (haccept : service.accept r = .ok none) : service.ident r = none := by
  cases hident : service.ident r with
  | none => rfl
  | some i => cases service.keyOf_ident hident haccept

theorem inHand_run {k : κ} : service.view.inHand (.run r (some k)) =
    (service.ident r).map (·, false) :=
  rfl

theorem inHand_keep {k : κ} : service.view.inHand (.keep r k a) =
    if service.counts a then (service.ident r).map (·, true) else none := rfl

/-- Of what has run, it is in hand what counts and is kept. -/
theorem inHand_after {k : Option κ} (a : α) (haccept : service.accept r = .ok k) :
    service.view.inHand (service.after r k a) =
      if service.keeps a then (service.counted (r, a)).map (·, true) else none := by
  rw [Service.after.eq_def, Service.counted]
  cases k with
  | none =>
    rw [ident_of_accept_none haccept, ite_self, Option.map_none, ite_self]
    rfl
  | some k =>
    show service.view.inHand (if service.keeps a then _ else _) = _
    split
    · rw [inHand_keep]
      split <;> rfl
    · rfl

variable (requests) in
theorem start_cases (h : service.start shared r = some q) :
    q.1 = shared ∧ (r ∈ requests → service.CallSound requests q.1 q.2) ∧
      service.view.inHand q.2 = none := by
  rw [Service.start] at h
  split at h
  · rename_i haccept
    cases h
    exact ⟨rfl, fun hr => ⟨hr, haccept⟩, rfl⟩
  · rename_i haccept
    cases h
    exact ⟨rfl, fun hr => ⟨hr, haccept⟩, rfl⟩
  · cases h
    exact ⟨rfl, fun _ => trivial, rfl⟩

/-- **What a run does** with the request in hand. -/
theorem move_ran {k : Option κ} {o : O} (hclear : service.Undisturbed s (.run r k) (.result o))
    (haccept : service.accept r = .ok k) (hrun : service.run r o = .ok a) :
    service.view.Move s (.run r k)
      ({ s.shared with runs := s.shared.runs ++ [(r, a)] }, service.after r k a) := by
  have hlog := log_append service s.shared (r, a)
  have hafter := inHand_after a haccept
  cases hcounted : service.counted (r, a) with
  | none =>
    rw [hcounted, Option.toList_none, List.append_nil] at hlog
    rw [hcounted, Option.map_none, ite_self] at hafter
    cases hin : service.view.inHand (.run r k) with
    | none => exact .stay hlog (hafter.trans hin.symm)
    | some held =>
      obtain ⟨i, acted⟩ := held
      refine .release i acted hlog hin hafter ?_
      rintro rfl
      cases k with
      | none => cases hin
      | some k =>
        obtain ⟨j, -, hj⟩ := Option.map_eq_some_iff.mp hin
        cases hj
  | some i =>
    -- it has run for good, and its answer is kept next
    obtain ⟨hcounts, hident⟩ : service.counts a = true ∧ service.ident r = some i := by
      rw [Service.counted] at hcounted
      split at hcounted
      · rename_i hcounts
        exact ⟨hcounts, hcounted⟩
      · cases hcounted
    have hkeeps : service.keeps a = true := by
      rw [Service.Undisturbed, hrun] at hclear
      exact hclear (by rw [hident]; rfl) hcounts
    rw [hcounted] at hlog
    rw [hcounted, if_pos hkeeps] at hafter
    refine .act i hlog ?_ hafter
    obtain rfl := service.keyOf_ident hident haccept
    rw [inHand_run, hident]
    rfl

/-! ## One step -/

variable [DecidableEq κ]

/-- **What one step does.**  It finds an answer, finds none, runs the request or fails to, keeps an
answer, or ends. -/
theorem next_cases (h : service.next shared p outcome = some q) :
    (∃ r k a r', p = .look r k ∧ outcome = .ok ∧ shared.entries k = some (a, r') ∧
      (q = (shared, .touch r k (service.touch a) r') ∨ q = (shared, .replied r a))) ∨
    (∃ r k, p = .look r k ∧ (outcome = .ok ∧ shared.entries k = none ∨ outcome = .error) ∧
      q = (shared, .run r (some k))) ∨
    (∃ r k o a, p = .run r k ∧ outcome = .result o ∧ service.run r o = .ok a ∧
      q = ({ shared with runs := shared.runs ++ [(r, a)] }, service.after r k a)) ∨
    (∃ r k e, p = .run r k ∧ q = (shared, .refused r e)) ∨
    (∃ r k a, p = .keep r k a ∧ (outcome = .error ∧ q = (shared, .answered r a) ∨
      q = ({ shared with entries := Function.update shared.entries k (some (a, r)) },
        .answered r a))) ∨
    ∃ r k a r', p = .touch r k a r' ∧ (q = (shared, .replied r a) ∨
      q = ({ shared with entries := Function.update shared.entries k (some (a, r')) },
        .replied r a)) := by
  rw [Service.next.eq_def] at h
  split at h
  · rename_i r k
    split at h
    · rename_i a r' hfound
      split at h
      · cases h
        exact .inl ⟨r, k, a, r', rfl, rfl, hfound, .inl rfl⟩
      · cases h
        exact .inl ⟨r, k, a, r', rfl, rfl, hfound, .inr rfl⟩
    · rename_i hnone
      cases h
      exact .inr (.inl ⟨r, k, rfl, .inl ⟨rfl, hnone⟩, rfl⟩)
  · cases h
    exact .inr (.inl ⟨_, _, rfl, .inr rfl, rfl⟩)
  · rename_i r k o
    split at h
    · rename_i a hrun
      cases h
      exact .inr (.inr (.inl ⟨r, k, o, a, rfl, rfl, hrun, rfl⟩))
    · cases h
      exact .inr (.inr (.inr (.inl ⟨r, k, _, rfl, rfl⟩)))
  · cases h
    exact .inr (.inr (.inr (.inr (.inl ⟨_, _, _, rfl, .inr rfl⟩))))
  · cases h
    exact .inr (.inr (.inr (.inr (.inl ⟨_, _, _, rfl, .inl ⟨rfl, rfl⟩⟩))))
  · cases h
    exact .inr (.inr (.inr (.inr (.inr ⟨_, _, _, _, rfl, .inr rfl⟩))))
  · cases h
    exact .inr (.inr (.inr (.inr (.inr ⟨_, _, _, _, rfl, .inl rfl⟩))))
  · cases h

/-- What was kept stays, or another answer takes its place. -/
theorem isSome_update {entries : κ → Option (α × R)} {k k' : κ} {e : α × R}
    (h : (entries k').isSome) : (Function.update entries k (some e) k').isSome := by
  rw [Function.update_apply]
  split
  · rfl
  · exact h

theorem closed_next {i : ι} (h : service.next s.shared p outcome = some q)
    (hi : service.view.closed s.shared i) : service.view.closed q.1 i := by
  rcases next_cases h with ⟨-, -, -, -, -, -, -, rfl | rfl⟩ | ⟨-, -, -, -, rfl⟩ |
    ⟨r, k, o, a, -, -, -, rfl⟩ | ⟨-, -, -, -, rfl⟩ | ⟨r, k, a, -, ⟨-, rfl⟩ | rfl⟩ |
    ⟨r, k, a, r', -, rfl | rfl⟩
  case inr.inr.inr.inr.inl.inr => exact isSome_update hi
  case inr.inr.inr.inr.inr.inr => exact isSome_update hi
  all_goals exact hi

theorem Service.Sound.keep (h : service.Sound requests shared) {k : κ} {a₀ : α}
    (hkey : service.Has requests r (some k)) (hrun : (r, a₀) ∈ shared.runs)
    (ha : service.Touched a₀ a) : service.Sound requests
      { shared with entries := Function.update shared.entries k (some (a, r)) } := by
  intro k' a' r' hentry
  change Function.update shared.entries k _ k' = _ at hentry
  by_cases hk : k' = k
  · rw [hk, Function.update_self] at hentry
    cases hentry
    exact ⟨hk ▸ hkey, a₀, hrun, ha⟩
  · rw [Function.update_of_ne hk] at hentry
    exact h k' a' r' hentry

theorem runs_next (h : service.next shared p outcome = some q) : shared.runs ⊆ q.1.runs := by
  rcases next_cases h with ⟨-, -, -, -, -, -, -, rfl | rfl⟩ | ⟨-, -, -, -, rfl⟩ |
    ⟨r, k, o, a, -, -, -, rfl⟩ | ⟨-, -, -, -, rfl⟩ | ⟨r, k, a, -, ⟨-, rfl⟩ | rfl⟩ |
    ⟨r, k, a, r', -, rfl | rfl⟩
  case inr.inr.inl => exact List.subset_append_left ..
  all_goals exact List.Subset.refl _

/-- **A step replays only what was kept for the same request.** -/
theorem sound_next (hkeys : service.SameOfKey requests) (hs : service.Sound requests s.shared)
    (hp : service.CallSound requests s.shared p) (h : service.next s.shared p outcome = some q) :
    service.Sound requests q.1 ∧ service.CallSound requests q.1 q.2 := by
  rcases next_cases h with ⟨r, k, a, r', rfl, rfl, hfound, hq⟩ | ⟨r, k, rfl, -, rfl⟩ |
    ⟨r, k, o, a, rfl, rfl, hrun, rfl⟩ | ⟨r, k, e, rfl, rfl⟩ | ⟨r, k, a, rfl, ⟨-, rfl⟩ | rfl⟩ |
    ⟨r, k, a, r', rfl, hq⟩
  · -- an answer is found
    obtain ⟨hkey', a₀, hran, n, rfl⟩ := hs k a r' hfound
    have hsame : service.Same r r' := hkeys r hp.1 r' hkey'.1 k hp.2 hkey'.2
    rcases hq with rfl | rfl
    · exact ⟨hs, hkey', hsame, a₀, hran, n + 1, (Function.iterate_succ_apply' ..).symm⟩
    · exact ⟨hs, (r', a₀), hran, hsame, n, rfl⟩
  · exact ⟨hs, hp⟩
  · -- the request has run
    have hmem : (r, a) ∈ s.shared.runs ++ [(r, a)] :=
      List.mem_append_right _ (List.mem_singleton_self _)
    refine ⟨fun k' a' r' hentry => ?_, ?_⟩
    · obtain ⟨hkey', a₀, hran, htouched⟩ := hs k' a' r' hentry
      exact ⟨hkey', a₀, runs_next h hran, htouched⟩
    · dsimp only
      rw [Service.after.eq_def]
      split
      · split
        · exact ⟨hp, hmem⟩
        · exact hmem
      · exact hmem
  · exact ⟨hs, trivial⟩
  · exact ⟨hs, hp.2⟩
  · exact ⟨hs.keep hp.1 hp.2 ⟨0, rfl⟩, hp.2⟩
  · -- an answer is written back
    obtain ⟨hkey', hsame, a₀, hran, htouched⟩ := hp
    rcases hq with rfl | rfl
    · exact ⟨hs, (r', a₀), hran, hsame, htouched⟩
    · exact ⟨hs.keep hkey' hran htouched, (r', a₀), hran, hsame, htouched⟩

/-- **What a step does** with the request in hand. -/
theorem move_next (hclear : service.Undisturbed s p outcome)
    (hp : service.CallSound requests s.shared p) (h : service.next s.shared p outcome = some q) :
    service.view.Move s p q := by
  rcases next_cases h with ⟨r, k, a, r', rfl, -, -, rfl | rfl⟩ | ⟨r, k, rfl, hnone, rfl⟩ |
    ⟨r, k, o, a, rfl, rfl, hrun, rfl⟩ | ⟨r, k, e, rfl, rfl⟩ | ⟨r, k, a, rfl, hq⟩ |
    ⟨r, k, a, r', rfl, rfl | rfl⟩
  · exact .stay rfl rfl
  · exact .stay rfl rfl
  · -- nothing was found
    cases hident : service.ident r with
    | none => exact .stay rfl (by rw [inHand_run, hident]; rfl)
    | some i =>
      have hfree : s.shared.entries k = none ∧ service.view.Free s i := by
        rcases hnone with ⟨rfl, hnone⟩ | rfl
        · exact ⟨hnone, hclear (Option.isNone_iff_eq_none.mpr hnone) i hident⟩
        · obtain ⟨hnone, hfree⟩ := hclear i hident
          exact ⟨Option.isNone_iff_eq_none.mp hnone, hfree⟩
      refine .take i rfl rfl ?_ ?_ hfree.2
      · rw [inHand_run, hident]
        rfl
      · show ¬ (s.shared.entries (service.keyOf i)).isSome = true
        rw [← keyOf_of_accept hident hp.2, hfree.1]
        exact Bool.false_ne_true
  · exact move_ran hclear hp.2 hrun
  · -- it could not run
    cases hin : service.view.inHand (.run r k) with
    | none => exact .stay rfl hin.symm
    | some held =>
      obtain ⟨i, acted⟩ := held
      refine .release i acted rfl hin rfl ?_
      rintro rfl
      cases k with
      | none => cases hin
      | some k =>
        obtain ⟨j, -, hj⟩ := Option.map_eq_some_iff.mp hin
        cases hj
  · -- the answer is kept
    by_cases hcounts : (service.ident r).isSome ∧ service.counts a
    · obtain ⟨i, hident⟩ := Option.isSome_iff_exists.mp hcounts.1
      rcases hq with ⟨rfl, -⟩ | rfl
      · exact absurd hcounts hclear
      refine .release i true rfl ?_ rfl fun _ => ?_
      · rw [inHand_keep, if_pos hcounts.2, hident]
        rfl
      · show (Function.update s.shared.entries k _ (service.keyOf i)).isSome
        rw [keyOf_of_accept hident hp.1.2, Function.update_self]
        rfl
    · have hin : service.view.inHand (.keep r k a) = none := by
        rw [inHand_keep]
        split
        · rename_i hc
          cases hident : service.ident r with
          | none => rfl
          | some i => exact absurd ⟨by rw [hident]; rfl, hc⟩ hcounts
        · rfl
      rcases hq with ⟨-, rfl⟩ | rfl <;> exact .stay rfl hin.symm
  · exact .stay rfl rfl
  · exact .stay rfl rfl

/-! ## The run -/

theorem sound_of_reach (hkeys : service.SameOfKey requests)
    (h : service.machine.Reach (service.Clear requests) s) :
    service.Sound requests s.shared ∧ ∀ p ∈ s.calls, service.CallSound requests s.shared p := by
  refine Concurrent.Reach.sharedInvariant (J := service.CallSound requests) ?_ ?_ ?_ ?_ h
  · rintro s rfl k a r hentry
    cases hentry
  · intro s r q hr hs hq
    obtain ⟨hsame, hcall, -⟩ := start_cases requests hq
    rw [hsame] at hcall ⊢
    exact ⟨hs, hcall hr, fun _ _ hp => hp⟩
  · intro s i outcome p q _ hcall hs hp hq
    obtain ⟨hs', hp'⟩ := sound_next hkeys hs hp hq
    exact ⟨hs', hp', fun _ _ hp => hp.mono (runs_next hq)⟩
  · rintro - e
    cases e

theorem ran_of_reach {ok} (h : service.machine.Reach ok s) :
    ∀ run ∈ s.shared.runs, ∃ o, service.run run.1 o = .ok run.2 := by
  refine (Concurrent.Reach.sharedInvariant (J := fun _ _ => True)
    (I := fun shared => ∀ run ∈ shared.runs, ∃ o, service.run run.1 o = .ok run.2)
    ?_ ?_ ?_ ?_ h).1
  · rintro s rfl run hrun
    cases hrun
  · intro s r q _ hs hq
    obtain ⟨hsame, -, -⟩ := start_cases [] hq
    rw [hsame]
    exact ⟨hs, trivial, fun _ _ _ => trivial⟩
  · intro s i outcome p q _ _ hs _ hq
    refine ⟨?_, trivial, fun _ _ _ => trivial⟩
    rcases next_cases hq with ⟨-, -, -, -, -, -, -, rfl | rfl⟩ | ⟨-, -, -, -, rfl⟩ |
      ⟨r, k, o, a, -, -, hran, rfl⟩ | ⟨-, -, -, -, rfl⟩ | ⟨r, k, a, -, ⟨-, rfl⟩ | rfl⟩ |
      ⟨r, k, a, r', -, rfl | rfl⟩
    case inr.inr.inl =>
      intro run hrun
      rcases List.mem_append.mp hrun with hrun | hrun
      · exact hs run hrun
      · rw [List.mem_singleton.mp hrun]
        exact ⟨o, hran⟩
    all_goals exact hs
  · rintro - e
    cases e

/-- **One request runs, and the others are answered as it was.** -/
theorem Reach.once [DecidableEq ι] (hkeys : service.SameOfKey requests)
    (h : service.machine.Reach (service.Clear requests) s) :
    (∀ i, (service.log s.shared).count i ≤ 1) ∧
    (∀ r a, .replied r a ∈ s.calls →
      ∃ run ∈ s.shared.runs, service.Same r run.1 ∧ service.Touched run.2 a) ∧
    ∀ r a, .answered r a ∈ s.calls → (r, a) ∈ s.shared.runs := by
  have honce : service.view.Once s := by
    refine CheckThenAct.Reach.once ?_ ?_ ?_ ?_ h
    · rintro s rfl
      rfl
    · intro s r q _ hq
      obtain ⟨hsame, -, hhand⟩ := start_cases [] hq
      rw [hsame]
      exact ⟨hhand, rfl, fun _ hk => hk⟩
    · intro s i outcome p q hreach hl hcall hq
      have hp := (sound_of_reach hkeys hreach).2 p (List.mem_of_getElem? hcall)
      exact ⟨move_next (hl p hcall) hp hq, fun _ hk => closed_next hq hk⟩
    · rintro - e
      cases e
  have hcalls := (sound_of_reach hkeys h).2
  exact ⟨List.nodup_iff_count_le_one.mp honce.once, fun r a hcall => hcalls _ hcall,
    fun r a hcall => hcalls _ hcall⟩

end ReplayCache
