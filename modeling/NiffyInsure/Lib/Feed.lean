import Mathlib.Data.List.Nodup
import Mathlib.Data.List.TakeDrop

/-!
# A log that is read once and followed from then on

Entries are appended to a log, and sent over a channel later.  A follower reads the log once, when
it has `n` entries, and gets the rest over the channel.

* `after`: the entries of a log behind a mark.
* `Follows`: what the follower has got over the channel, what is on the way and what is yet to be
  sent make up what it has not read.  It is kept by every operation (`Follows.append`,
  `Follows.send`, `Follows.receive`), and in the end the follower has got everything once and in
  order (`Follows.got_eq`).
-/

universe u

namespace Feed

variable {α : Type u}

/-! ## Behind a mark -/

/-- The entries behind the first one that `mark` selects. -/
def after (mark : α → Bool) : List α → List α
  | [] => []
  | x :: log => if mark x then log else after mark log

variable {mark : α → Bool} {log more : List α} {x : α}

theorem after_append_of_mem (h : ∃ x ∈ log, mark x = true) :
    after mark (log ++ more) = after mark log ++ more := by
  induction log with
  | nil =>
    obtain ⟨x, hx, -⟩ := h
    cases hx
  | cons y log ih =>
    rw [List.cons_append, after, after]
    split
    · rfl
    · rename_i hy
      obtain ⟨x, hx, hmark⟩ := h
      obtain rfl | hx := List.mem_cons.mp hx
      · exact absurd hmark hy
      · exact ih ⟨x, hx, hmark⟩

theorem after_append_of_not_mem (h : ∀ x ∈ log, mark x = false) :
    after mark (log ++ more) = after mark more := by
  induction log with
  | nil => rfl
  | cons y log ih =>
    rw [List.cons_append, after, h y List.mem_cons_self, if_neg Bool.false_ne_true]
    exact ih fun x hx => h x (List.mem_cons_of_mem y hx)

theorem after_eq_nil (h : ∀ x ∈ log, mark x = false) : after mark log = [] := by
  rw [← List.append_nil log, after_append_of_not_mem h]
  rfl

theorem mem_of_mem_after (h : x ∈ after mark log) : x ∈ log := by
  induction log with
  | nil => cases h
  | cons y log ih =>
    rw [after] at h
    split at h
    · exact List.mem_cons_of_mem y h
    · exact List.mem_cons_of_mem y (ih h)

/-- What is behind the mark stays there, and no old entry gets there. -/
theorem mem_after_append (hnew : x ∉ more) :
    x ∈ after mark (log ++ more) ↔ x ∈ after mark log := by
  by_cases h : ∃ y ∈ log, mark y = true
  · rw [after_append_of_mem h, List.mem_append, or_iff_left hnew]
  · have hnone : ∀ y ∈ log, mark y = false := fun y hy =>
      Bool.eq_false_iff.mpr fun hmark => h ⟨y, hy, hmark⟩
    rw [after_append_of_not_mem hnone]
    refine iff_of_false (fun hafter => hnew (mem_of_mem_after hafter)) fun hafter => ?_
    rw [after_eq_nil hnone] at hafter
    cases hafter

/-- If no entry in front is marked, they may be dropped. -/
theorem after_drop {n : ℕ} (h : ∃ x ∈ log.drop n, mark x = true)
    (hunique : ∀ x ∈ log.take n, ∀ y ∈ log.drop n, mark x = true → mark y = true → False) :
    after mark (log.drop n) = after mark log := by
  obtain ⟨y, hy, hmark⟩ := h
  have hnone : ∀ x ∈ log.take n, mark x = false := fun x hx =>
    Bool.eq_false_iff.mpr fun hx' => hunique x hx y hy hx' hmark
  have hsplit : after mark (log.take n ++ log.drop n) = after mark (log.drop n) :=
    after_append_of_not_mem hnone
  rw [← hsplit, List.take_append_drop]

/-! ## Following -/

variable [DecidableEq α] {n : ℕ} {rel : α → Bool} {got way rest l l' : List α}

/-- The entries that concern the follower and that it has not read. -/
def unread (log : List α) (n : ℕ) (rel : α → Bool) (l : List α) : List α :=
  l.filter fun x => rel x && !(log.take n).contains x

theorem unread_append : unread log n rel (l ++ l') = unread log n rel l ++ unread log n rel l' :=
  List.filter_append ..

theorem mem_unread : x ∈ unread log n rel l ↔ x ∈ l ∧ rel x = true ∧ x ∉ log.take n := by
  rw [unread, List.mem_filter, Bool.and_eq_true, Bool.not_eq_true', List.contains_eq_mem,
    decide_eq_false_iff_not]

theorem unread_log_append (hn : n ≤ log.length) :
    unread (log ++ more) n rel l = unread log n rel l := by
  rw [unread, List.take_append_of_le_length hn, unread]

/-- In a log without repetitions these are the entries behind the `n`-th. -/
theorem unread_self (hnodup : log.Nodup) : unread log n rel log = (log.drop n).filter rel := by
  have hsplit := List.take_append_drop n log
  have hdisjoint : List.Disjoint (log.take n) (log.drop n) :=
    List.disjoint_of_nodup_append (hsplit.symm ▸ hnodup)
  have hread : unread log n rel (log.take n) = [] :=
    List.filter_eq_nil_iff.mpr fun x hx h => (mem_unread.mp (List.mem_filter.mpr ⟨hx, h⟩)).2.2 hx
  have hrest : unread log n rel (log.drop n) = (log.drop n).filter rel := by
    refine List.filter_congr fun x hx => ?_
    have hnot : x ∉ log.take n := fun h => hdisjoint h hx
    rw [List.contains_eq_mem, decide_eq_false hnot, Bool.not_false, Bool.and_true]
  calc unread log n rel log = unread log n rel (log.take n ++ log.drop n) := by rw [hsplit]
    _ = (log.drop n).filter rel := by rw [unread_append, hread, hrest, List.nil_append]

/-- What the follower has got, what is on the way and what is yet to be sent. -/
structure Follows (log : List α) (n : ℕ) (rel : α → Bool) (got way rest : List α) : Prop where
  le : n ≤ log.length
  parts : got ++ (unread log n rel way ++ unread log n rel rest) = unread log n rel log

theorem Follows.start (hway : ∀ x ∈ way, x ∈ log) (hrest : ∀ x ∈ rest, x ∈ log) :
    Follows log log.length rel [] way rest := by
  have hnil (l : List α) (hl : ∀ x ∈ l, x ∈ log) : unread log log.length rel l = [] := by
    refine List.filter_eq_nil_iff.mpr fun x hx h => ?_
    refine (mem_unread.mp (List.mem_filter.mpr ⟨hx, h⟩)).2.2 ?_
    rw [List.take_length]
    exact hl x hx
  refine ⟨Nat.le_refl _, ?_⟩
  rw [hnil way hway, hnil rest hrest, hnil log fun _ h => h]
  rfl

theorem Follows.append (h : Follows log n rel got way rest) :
    Follows (log ++ [x]) n rel got way (rest ++ [x]) := by
  refine ⟨?_, ?_⟩
  · rw [List.length_append]
    exact Nat.le_add_right_of_le h.le
  · rw [unread_log_append h.le, unread_log_append h.le, unread_log_append h.le, unread_append,
      unread_append, ← h.parts]
    simp only [List.append_assoc]

/-- An entry is sent that the follower has read, or that does not concern it. -/
theorem Follows.skip {i : ℕ} (h : Follows log n rel got way rest) (hi : rest[i]? = some x)
    (hx : ¬ (rel x = true ∧ x ∉ log.take n)) {sent : List α}
    (hsent : sent = way ∨ sent = way ++ [x]) :
    Follows log n rel got sent (rest.eraseIdx i) := by
  obtain ⟨hlt, rfl⟩ := List.getElem?_eq_some_iff.mp hi
  have hnil : unread log n rel [rest[i]] = [] :=
    List.filter_eq_nil_iff.mpr fun y hy hyx => by
      rw [List.mem_singleton.mp hy] at hyx
      exact hx (mem_unread.mp (List.mem_filter.mpr ⟨List.mem_singleton_self _, hyx⟩)).2
  have hrest : unread log n rel rest = unread log n rel (rest.eraseIdx i) := by
    rw [List.eraseIdx_eq_take_drop_succ, unread_append]
    conv_lhs => rw [← List.take_append_drop i rest, List.drop_eq_getElem_cons hlt, unread_append,
      ← List.singleton_append, unread_append, hnil, List.nil_append]
  have hway : unread log n rel sent = unread log n rel way := by
    obtain rfl | rfl := hsent
    · rfl
    · rw [unread_append, hnil, List.append_nil]
  exact ⟨h.le, by rw [hway, ← hrest, h.parts]⟩

/-- The first of the entries for the follower is sent. -/
theorem Follows.send {i : ℕ} (h : Follows log n rel got way rest) (hi : rest[i]? = some x)
    (hfirst : ∀ y ∈ rest.take i, rel y = true → y ∈ log.take n) :
    Follows log n rel got (way ++ [x]) (rest.eraseIdx i) := by
  obtain ⟨hlt, rfl⟩ := List.getElem?_eq_some_iff.mp hi
  have hnil : unread log n rel (rest.take i) = [] :=
    List.filter_eq_nil_iff.mpr fun y hy hyx => by
      obtain ⟨-, hrel, hnot⟩ := mem_unread.mp (List.mem_filter.mpr ⟨hy, hyx⟩)
      exact hnot (hfirst y hy hrel)
  have hrest : unread log n rel rest =
      unread log n rel [rest[i]] ++ unread log n rel (rest.eraseIdx i) := by
    rw [List.eraseIdx_eq_take_drop_succ, unread_append, hnil, List.nil_append, ← unread_append,
      List.singleton_append, ← List.drop_eq_getElem_cons hlt]
    conv_lhs => rw [← List.take_append_drop i rest, unread_append, hnil, List.nil_append]
  refine ⟨h.le, ?_⟩
  rw [unread_append, List.append_assoc, ← hrest]
  exact h.parts

theorem Follows.receive (h : Follows log n rel got (x :: way) rest) :
    Follows log n rel (got ++ unread log n rel [x]) way rest := by
  have hway : unread log n rel ([x] ++ way) = unread log n rel [x] ++ unread log n rel way :=
    unread_append
  rw [List.singleton_append] at hway
  refine ⟨h.le, ?_⟩
  rw [← h.parts, hway]
  simp only [List.append_assoc]

/-- Nothing is on the way and nothing is yet to be sent. -/
theorem Follows.got_eq (h : Follows log n rel got [] []) : got = unread log n rel log := by
  rw [← h.parts]
  exact (List.append_nil got).symm

theorem Follows.got_le (h : Follows log n rel got way rest) : got <+: unread log n rel log :=
  ⟨_, h.parts⟩

end Feed
