import Mathlib.Data.List.TakeDrop
import Mathlib.Data.List.Flatten

/-!
# Reading a list page by page

A page is a list of items, and a cursor for the next page unless it is the last one.

* `follow`, `Reads`: what a reader gets who follows the cursors until there is none.
* `orAgain`: pages of which some cannot be got.
* `Splits.reads`: the reader gets everything, if each page is the front of what its cursor leaves to
  be read, and the next cursor leaves the rest.
* `not_reads`: the reader never gets to the end, if every page has a next cursor.
* `seek`, `take_append_seek`: a cursor that is the key of the last item leaves the rest of a list
  that is sorted by its keys.
* `flatten_pages`: numbered pages of one size.
-/

universe u v

/-- Some items, and the cursor of the next page. -/
structure Page (α : Type u) (κ : Type v) where
  items : List α
  next : Option κ

namespace Paging

variable {α : Type u} {κ : Type v}

/-! ## Following cursors -/

/-- Pages of which some cannot be got: a reader asks for these again and again. -/
def orAgain (fetch : κ → Option (Page α κ)) (c : κ) : Page α κ := (fetch c).getD ⟨[], some c⟩

section Follow

variable (fetch : κ → Page α κ)

/-- Follow the cursors from `c` on, through at most `n` pages. -/
def follow : ℕ → κ → Option (List α)
  | 0, _ => none
  | n + 1, c =>
    match (fetch c).next with
    | none => some (fetch c).items
    | some c' => (follow n c').map ((fetch c).items ++ ·)

/-- Following the cursors comes to an end, and gives `l`. -/
def Reads (c : κ) (l : List α) : Prop := ∃ n, follow fetch n c = some l

variable {fetch} {c c' : κ} {l l' : List α}

theorem reads_last (h : (fetch c).next = none) : Reads fetch c (fetch c).items := by
  refine ⟨1, ?_⟩
  rw [follow, h]

theorem Reads.more (hnext : (fetch c).next = some c') (h : Reads fetch c' l) :
    Reads fetch c ((fetch c).items ++ l) := by
  obtain ⟨n, hn⟩ := h
  refine ⟨n + 1, ?_⟩
  rw [follow, hnext]
  show (follow fetch n c').map _ = _
  rw [hn]
  rfl

/-- From a good cursor on, every page is the front of what is left to be read, and the next cursor
leaves what is behind it. -/
structure Splits (fetch : κ → Page α κ) (good : κ → Prop) (rest : κ → List α) : Prop where
  last : ∀ c, good c → (fetch c).next = none → (fetch c).items = rest c
  more : ∀ c c', good c → (fetch c).next = some c' →
    good c' ∧ (fetch c).items ≠ [] ∧ (fetch c).items ++ rest c' = rest c

/-- **Following the cursors reads what is left**, all of it, once and in order. -/
theorem Splits.reads {good : κ → Prop} {rest : κ → List α} (h : Splits fetch good rest)
    (hc : good c) : Reads fetch c (rest c) := by
  induction hn : (rest c).length using Nat.strongRecOn generalizing c with
  | ind n ih =>
    cases hnext : (fetch c).next with
    | none =>
      rw [← h.last c hc hnext]
      exact reads_last hnext
    | some c' =>
      obtain ⟨hc', hsome, hsplit⟩ := h.more c c' hc hnext
      have hpos : 0 < (fetch c).items.length := List.length_pos_iff.mpr hsome
      have hlength : (fetch c).items.length + (rest c').length = n := by
        rw [← hn, ← hsplit, List.length_append]
      rw [← hsplit]
      exact (ih _ (by omega) hc' rfl).more hnext

/-- **There is no end to read to**, if every page leads to another one. -/
theorem not_reads (bad : κ → Prop) (h : ∀ c, bad c → ∃ c', (fetch c).next = some c' ∧ bad c')
    (hc : bad c) : ¬ Reads fetch c l := by
  rintro ⟨n, hn⟩
  induction n generalizing c l with
  | zero => cases hn
  | succ n ih =>
    obtain ⟨c', hnext, hc'⟩ := h c hc
    rw [follow, hnext] at hn
    obtain ⟨rest, hrest, -⟩ := Option.map_eq_some_iff.mp hn
    exact ih hc' hrest

end Follow

/-! ## Cursors that are keys -/

section Seek

variable (key : α → κ) (after : κ → κ → Bool)

/-- The items whose keys come after `c`. -/
def seek (l : List α) (c : κ) : List α := l.filter fun x => after c (key x)

variable {key after} {l : List α} {c : κ} {x : α}

theorem seek_append_cons (hirrefl : ∀ a, after a a = false)
    (hasymm : ∀ a b, after a b = true → after b a = false) {front back : List α}
    (hsorted : (front ++ x :: back).Pairwise fun a b => after (key a) (key b) = true) :
    seek key after (front ++ x :: back) (key x) = back := by
  obtain ⟨-, htail, hcross⟩ := List.pairwise_append.mp hsorted
  have hfront : front.filter (fun y => after (key x) (key y)) = [] := by
    refine List.filter_eq_nil_iff.mpr fun y hy h => ?_
    rw [hasymm _ _ (hcross y hy x List.mem_cons_self)] at h
    cases h
  have hback : back.filter (fun y => after (key x) (key y)) = back :=
    List.filter_eq_self.mpr (List.pairwise_cons.mp htail).1
  rw [seek, List.filter_append, hfront, List.filter_cons_of_neg (by simp [hirrefl]), hback,
    List.nil_append]

/-- **The key of the last item of a page leaves what is behind the page.** -/
theorem take_append_seek (hirrefl : ∀ a, after a a = false)
    (htrans : ∀ a b d, after a b = true → after b d = true → after a d = true)
    (hsorted : l.Pairwise fun a b => after (key a) (key b) = true) {n : ℕ}
    (hlast : ((seek key after l c).take n).getLast? = some x) :
    (seek key after l c).take n ++ seek key after l (key x) = seek key after l c := by
  have hasymm : ∀ a b, after a b = true → after b a = false := by
    intro a b hab
    by_contra hba
    have hself : after a a = true := htrans a b a hab (by simpa using hba)
    rw [hirrefl] at hself
    cases hself
  obtain ⟨front, hfront⟩ := List.getLast?_eq_some_iff.mp hlast
  have hsplit : seek key after l c = front ++ x :: (seek key after l c).drop n := by
    conv_lhs => rw [← List.take_append_drop n (seek key after l c), hfront]
    rw [List.append_assoc, List.singleton_append]
  have hx : after c (key x) = true := by
    have hmem : x ∈ seek key after l c := by
      rw [hsplit]
      exact List.mem_append_right _ List.mem_cons_self
    exact (List.mem_filter.mp hmem).2
  -- behind `x` is behind `c`
  have hseek : seek key after l (key x) = seek key after (seek key after l c) (key x) := by
    rw [seek, seek, seek, List.filter_filter]
    refine List.filter_congr fun y _ => ?_
    cases hy : after (key x) (key y) with
    | false => rfl
    | true => rw [htrans _ _ _ hx hy, Bool.and_true]
  have hrest : seek key after (seek key after l c) (key x) = (seek key after l c).drop n := by
    have hsorted' : (seek key after l c).Pairwise fun a b => after (key a) (key b) = true :=
      hsorted.filter _
    rw [hsplit] at hsorted'
    conv_lhs => rw [hsplit]
    exact seek_append_cons hirrefl hasymm hsorted'
  rw [hseek, hrest, List.take_append_drop]

end Seek

/-! ## Numbered pages -/

/-- **The pages with the first numbers, one after the other, are the front of the list.** -/
theorem flatten_pages (l : List α) (size n : ℕ) :
    ((List.range n).map fun i => (l.drop (i * size)).take size).flatten = l.take (n * size) := by
  induction n with
  | zero => simp
  | succ n ih =>
    rw [List.range_succ, List.map_append, List.flatten_append, ih, List.map_singleton,
      List.flatten_singleton, Nat.succ_mul, List.take_add]

end Paging
