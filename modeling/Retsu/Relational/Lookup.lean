/-
  A table, looked up by a unique column.

  To its clients a table with a unique column is a partial function from the values of the column
  to the rows.  `lookup` is this function, and the lemmas say what an insert, a delete and an update
  make of it.
-/
import Retsu.Relational.Table

namespace Relational

variable {α κ : Type*} [DecidableEq κ] {key : α → κ} {rows : List α}

/-- The row that has this value of the column. -/
def lookup (key : α → κ) (rows : List α) (k : κ) : Option α := rows.find? fun r => key r = k

theorem lookup_eq_some (h : (rows.map key).Nodup) {k : κ} {a : α} :
    lookup key rows k = some a ↔ a ∈ rows ∧ key a = k :=
  find?_key_eq_some h

theorem lookup_eq_none {k : κ} : lookup key rows k = none ↔ ∀ a ∈ rows, key a ≠ k :=
  find?_key_eq_none

theorem lookup_self (h : (rows.map key).Nodup) {a : α} (ha : a ∈ rows) :
    lookup key rows (key a) = some a :=
  (lookup_eq_some h).mpr ⟨ha, rfl⟩

theorem lookup_append (more : List α) (k : κ) :
    lookup key (rows ++ more) k = (lookup key rows k).or (lookup key more k) :=
  List.find?_append

/-- A row with a new value of the column is inserted. -/
theorem lookup_insert {new : α} (hnew : ∀ r ∈ rows, key r ≠ key new) :
    lookup key (rows ++ [new]) = Function.update (lookup key rows) (key new) (some new) := by
  funext k
  rw [lookup_append]
  by_cases hk : k = key new
  · subst hk
    rw [lookup_eq_none.mpr hnew, Function.update_self]
    simp [lookup]
  · rw [Function.update_of_ne hk]
    have hother : lookup key [new] k = none := by simp [lookup, Ne.symm hk]
    rw [hother, Option.or_none]

/-- The rows with some values of the column are deleted. -/
theorem lookup_delete (gone : List κ) (k : κ) :
    lookup key (rows.filter fun r => key r ∉ gone) k =
      if k ∈ gone then none else lookup key rows k := by
  by_cases hk : k ∈ gone
  · rw [if_pos hk, lookup_eq_none]
    intro r hr heq
    exact of_decide_eq_true (List.mem_filter.mp hr).2 (heq ▸ hk)
  · rw [if_neg hk, lookup, lookup, List.find?_filter]
    congr 1
    funext r
    by_cases hr : key r = k
    · simp [hr, hk]
    · simp [hr]

/-- Rows are updated that keep the value of the column. -/
theorem lookup_update {f : α → α} (hf : ∀ r, key (f r) = key r) (k : κ) :
    lookup key (rows.map f) k = (lookup key rows k).map f := by
  have hkey : (fun r => decide (key r = k)) ∘ f = fun r => decide (key r = k) := by
    funext r
    rw [Function.comp_apply, hf]
  rw [lookup, lookup, List.find?_map, hkey]

end Relational
