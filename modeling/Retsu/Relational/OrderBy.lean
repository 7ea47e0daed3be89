/-
  `ORDER BY key LIMIT n` on lists of rows.

  A query result is a list, its sort key a map into a linear order (a composite key is a
  lexicographic product), and sorting is Mathlib's stable insertion sort, so a query
  evaluates in the kernel.  The lemmas say what a caller may rely on: the rows are a
  permutation of the input, they come out in key order, and the first of them is a minimum.
-/
import Mathlib.Data.List.Sort
import Mathlib.Data.List.TakeDrop
import Mathlib.Data.Prod.Lex

namespace Relational

variable {α κ : Type*} [LinearOrder κ]

/-- The rows in ascending order of `key`. -/
def orderBy (key : α → κ) (rows : List α) : List α :=
  rows.insertionSort fun a b => key a ≤ key b

variable {key : α → κ} {rows : List α}

theorem orderBy_perm (key : α → κ) (rows : List α) : (orderBy key rows).Perm rows :=
  List.perm_insertionSort _ rows

@[simp] theorem mem_orderBy {a : α} : a ∈ orderBy key rows ↔ a ∈ rows :=
  (orderBy_perm key rows).mem_iff

@[simp] theorem length_orderBy : (orderBy key rows).length = rows.length :=
  (orderBy_perm key rows).length_eq

theorem orderBy_pairwise (key : α → κ) (rows : List α) :
    (orderBy key rows).Pairwise fun a b => key a ≤ key b := by
  have : Std.Total fun a b : α => key a ≤ key b := ⟨fun a b => le_total (key a) (key b)⟩
  have : IsTrans α fun a b => key a ≤ key b := ⟨fun _ _ _ => le_trans⟩
  exact List.pairwise_insertionSort _ rows

/-- With pairwise different keys the order is strict. -/
theorem orderBy_strict (h : (rows.map key).Nodup) :
    (orderBy key rows).Pairwise fun a b => key a < key b := by
  have hnd : ((orderBy key rows).map key).Nodup :=
    ((orderBy_perm key rows).map key).nodup_iff.mpr h
  rw [List.Nodup, List.pairwise_map] at hnd
  exact ((orderBy_pairwise key rows).and hnd).imp fun h => lt_of_le_of_ne h.1 h.2

/-- `LIMIT 1` finds nothing exactly when there is nothing. -/
theorem head?_orderBy_eq_none : (orderBy key rows).head? = none ↔ rows = [] := by
  rw [List.head?_eq_none_iff, ← List.length_eq_zero_iff, length_orderBy,
    List.length_eq_zero_iff]

/-- What `LIMIT 1` finds is a row no other row comes before. -/
theorem head?_orderBy_eq_some {a : α} (h : (orderBy key rows).head? = some a) :
    a ∈ rows ∧ ∀ b ∈ rows, key a ≤ key b := by
  obtain ⟨rest, hrest⟩ := List.head?_eq_some_iff.mp h
  have hsorted := orderBy_pairwise key rows
  rw [hrest, List.pairwise_cons] at hsorted
  refine ⟨mem_orderBy.mp (hrest ▸ List.mem_cons_self), fun b hb => ?_⟩
  have hb' : b ∈ orderBy key rows := mem_orderBy.mpr hb
  rw [hrest] at hb'
  rcases List.mem_cons.mp hb' with rfl | hb'
  · exact le_rfl
  · exact hsorted.1 b hb'

/-- `LIMIT n` takes rows of the table only. -/
theorem mem_of_mem_take_orderBy {a : α} {n : Nat} (h : a ∈ (orderBy key rows).take n) :
    a ∈ rows :=
  mem_orderBy.mp (List.mem_of_mem_take h)

/-- A sorted list of the rows is the query's result, when the rows have different keys. -/
theorem orderBy_eq {sorted : List α} (hp : rows.Perm sorted)
    (hsorted : sorted.Pairwise fun a b => key a ≤ key b)
    (hinj : ∀ a ∈ rows, ∀ b ∈ rows, key a = key b → a = b) : orderBy key rows = sorted := by
  refine List.Perm.eq_of_pairwise (fun a b ha hb hab hba => ?_) (orderBy_pairwise key rows)
    hsorted ((orderBy_perm key rows).trans hp)
  exact hinj a (mem_orderBy.mp ha) b (hp.mem_iff.mpr hb) (le_antisymm hab hba)

/-- Sorting commutes with a change of the rows that leaves the keys alone. -/
theorem orderBy_map {β : Type*} (f : β → α) (rows : List β) :
    orderBy key (rows.map f) = (orderBy (fun b => key (f b)) rows).map f :=
  (List.map_insertionSort _ _ f rows fun _ _ _ _ => by simp).symm

/-- Sorting is stable: of two keys it does not matter which, if they compare earlier rows with
    later ones alike. -/
theorem orderBy_stable {κ' : Type*} [LinearOrder κ'] {key' : α → κ'}
    (h : rows.Pairwise fun a b => key a ≤ key b ↔ key' a ≤ key' b) :
    orderBy key rows = orderBy key' rows := by
  induction rows with
  | nil => rfl
  | cons a rows ih =>
    obtain ⟨ha, hrows⟩ := List.pairwise_cons.mp h
    have hrest : rows.insertionSort (fun a b => key a ≤ key b) =
        rows.insertionSort fun a b => key' a ≤ key' b := ih hrows
    rw [orderBy, orderBy, List.insertionSort_cons, List.insertionSort_cons, hrest]
    have hinsert : ∀ sorted : List α, (∀ b ∈ sorted, key a ≤ key b ↔ key' a ≤ key' b) →
        sorted.orderedInsert (fun a b => key a ≤ key b) a =
          sorted.orderedInsert (fun a b => key' a ≤ key' b) a := by
      intro sorted hsorted
      induction sorted with
      | nil => rfl
      | cons b sorted ih =>
        obtain ⟨hb, hrest⟩ := List.forall_mem_cons.mp hsorted
        simp only [List.orderedInsert, hb, ih hrest]
    exact hinsert _ fun b hb => ha b ((List.mem_insertionSort _).mp hb)

end Relational
