import Mathlib.Data.List.Nodup
import Mathlib.Data.List.Perm.Basic

/-!
# Tables as lists of rows

`updateWhere` and `upsert` are what a database does for the statements of these names.  Of a log
of entries with keys, the newest in front, `latest` keeps for every key the entry that was made
last.

* `perm_upsert`: a table into which the entries of a log are upserted by their keys holds the
  latest entries of the log.
* `countP_latest_cons`: an entry changes the number of the latest entries of a kind only when
  entries of its key can be of that kind.
-/

namespace Table

universe u v w

variable {α : Type u} {β : Type v} {κ : Type w}

def updateWhere (p : α → Bool) (f : α → α) (rows : List α) : List α :=
  rows.map fun r => if p r then f r else r

/-- The rows that `p` selects are updated; if there is none, a row is created. -/
def upsert (p : α → Bool) (new : α) (f : α → α) (rows : List α) : List α :=
  if rows.any p then updateWhere p f rows else rows ++ [new]

theorem mem_updateWhere {p : α → Bool} {f : α → α} {rows : List α} {r : α} :
    r ∈ updateWhere p f rows ↔ ∃ r₀ ∈ rows, r = if p r₀ then f r₀ else r₀ := by
  simp only [updateWhere, List.mem_map, eq_comm]

variable [DecidableEq κ] (key : β → κ)

/-- The latest entry of every key. -/
def latest : List β → List β
  | [] => []
  | x :: log => x :: (latest log).filter (key · ≠ key x)

variable {key}

theorem nodup_latest (log : List β) : ((latest key log).map key).Nodup := by
  induction log with
  | nil => exact List.nodup_nil
  | cons x log ih =>
    show (key x :: ((latest key log).filter (key · ≠ key x)).map key).Nodup
    rw [List.nodup_cons]
    constructor
    · simp
    · exact ih.sublist (List.filter_sublist.map key)

/-- Among entries with different keys, putting `x` for the one that has its key is dropping that
one and adding `x`. -/
theorem perm_replace {x : β} {l : List β} (hnd : (l.map key).Nodup) (hx : key x ∈ l.map key) :
    (l.map fun y => if key y = key x then x else y).Perm (x :: l.filter (key · ≠ key x)) := by
  induction l with
  | nil => simp at hx
  | cons y l ih =>
    rw [List.map_cons, List.nodup_cons] at hnd
    by_cases hy : key y = key x
    · -- the keys are different, so that nothing else in the list is touched
      have hrest : ∀ z ∈ l, key z ≠ key x := by
        intro z hz hzx
        exact hnd.1 (by rw [hy, ← hzx]; exact List.mem_map_of_mem hz)
      have hmap : (l.map fun z => if key z = key x then x else z) = l := by
        rw [List.map_congr_left fun z hz => if_neg (hrest z hz), List.map_id']
      have hfilter : l.filter (key · ≠ key x) = l :=
        List.filter_eq_self.mpr fun z hz => by simpa using hrest z hz
      rw [List.map_cons, if_pos hy, hmap, List.filter_cons_of_neg (by simpa using hy), hfilter]
    · have hin : key x ∈ l.map key := by
        rw [List.map_cons, List.mem_cons] at hx
        exact hx.resolve_left fun h => hy h.symm
      rw [List.map_cons, if_neg hy, List.filter_cons_of_pos (by simpa using hy)]
      exact ((ih hnd.2 hin).cons y).trans (List.Perm.swap x y _)

/-- What a table holds (`content`) are the latest entries of a log, and it still is after an entry
of the log was upserted by its key. -/
theorem perm_upsert {rows : List α} {log : List β} {x : β} {content : α → β}
    {p : α → Bool} {new : α}
    {f : α → α} (h : (rows.map content).Perm (latest key log)) (hnew : content new = x)
    (hp : ∀ r, p r = true ↔ key (content r) = key x) (hf : ∀ r, p r = true → content (f r) = x) :
    ((upsert p new f rows).map content).Perm (latest key (x :: log)) := by
  have hfilter := h.filter (key · ≠ key x)
  rw [upsert]
  split
  · rename_i hany
    have hmap : (updateWhere p f rows).map content =
        (rows.map content).map fun y => if key y = key x then x else y := by
      rw [updateWhere, List.map_map, List.map_map]
      refine List.map_congr_left fun r _ => ?_
      show content (if p r then f r else r) = if key (content r) = key x then x else content r
      by_cases hr : p r = true
      · rw [if_pos hr, if_pos ((hp r).mp hr), hf r hr]
      · rw [if_neg hr, if_neg fun hk => hr ((hp r).mpr hk)]
    have hnd : ((rows.map content).map key).Nodup := (h.map key).nodup_iff.mpr (nodup_latest log)
    have hx : key x ∈ (rows.map content).map key := by
      obtain ⟨r, hr, hpr⟩ := List.any_eq_true.mp hany
      rw [← (hp r).mp hpr]
      exact List.mem_map_of_mem (List.mem_map_of_mem hr)
    rw [hmap]
    exact (perm_replace hnd hx).trans (hfilter.cons x)
  · rename_i hnone
    have hself : (rows.map content).filter (key · ≠ key x) = rows.map content := by
      refine List.filter_eq_self.mpr ?_
      intro y hy
      obtain ⟨r, hr, rfl⟩ := List.mem_map.mp hy
      simp only [ne_eq, decide_eq_true_eq]
      exact fun hk => hnone (List.any_eq_true.mpr ⟨r, hr, (hp r).mpr hk⟩)
    rw [List.map_append, List.map_singleton, hnew]
    rw [hself] at hfilter
    exact (List.perm_append_singleton x _).trans (hfilter.cons x)

theorem countP_latest_cons {q : β → Bool} {x : β} (log : List β)
    (hq : ∀ y, key y = key x → q y = false) :
    (latest key (x :: log)).countP q = (latest key log).countP q := by
  have hx : ¬ q x = true := by simp [hq x rfl]
  rw [latest, List.countP_cons_of_neg hx, List.countP_filter]
  refine List.countP_congr fun y _ => ?_
  constructor
  · intro h
    exact (Bool.and_eq_true_iff.mp h).1
  · intro h
    have hne : key y ≠ key x := fun hk => by simp [hq y hk] at h
    simp [h, hne]

end Table
