/-
  `GROUP BY`, and totals of signed entries per key.

  `aggregate key f rows` is `SELECT key, f(group) … GROUP BY key ORDER BY key`.  Its entries
  are pairs of a key and a value in a commutative monoid, and so are the entries of a
  `UNION ALL` of two such queries; `totalAt entries k` is what the entries say about `k`
  altogether.  The lemmas compute this total for each query shape, so a client never looks
  at the order or the number of the entries.
-/
import Mathlib.Algebra.BigOperators.Group.List.Basic
import Mathlib.Algebra.Ring.Nat
import Mathlib.Data.List.Dedup
import Retsu.Relational.OrderBy

namespace Relational

variable {α β κ V : Type*} [LinearOrder κ]

/-- The different keys of the rows, ascending. -/
def groupKeys (key : α → κ) (rows : List α) : List κ := orderBy id (rows.map key).dedup

/-- `SELECT key, f(group) FROM rows GROUP BY key ORDER BY key`. -/
def aggregate (key : α → κ) (f : List α → β) (rows : List α) : List (κ × β) :=
  (groupKeys key rows).map fun k => (k, f (rows.filter fun a => key a = k))

/-- The total the entries give for the key `k`. -/
def totalAt [AddCommMonoid V] (entries : List (κ × V)) (k : κ) : V :=
  ((entries.filter fun e => e.1 = k).map Prod.snd).sum

/-- `SELECT key, SUM(value) FROM entries GROUP BY key HAVING SUM(value) <> 0 ORDER BY key`. -/
def netTotals [AddCommMonoid V] [DecidableEq V] (entries : List (κ × V)) : List (κ × V) :=
  (aggregate Prod.fst (fun es => (es.map Prod.snd).sum) entries).filter fun e => e.2 ≠ 0

/-! ## Keys -/

variable {key : α → κ} {rows : List α} {k : κ}

@[simp] theorem mem_groupKeys : k ∈ groupKeys key rows ↔ ∃ a ∈ rows, key a = k := by
  simp [groupKeys]

theorem groupKeys_sorted (key : α → κ) (rows : List α) :
    (groupKeys key rows).Pairwise (· < ·) := by
  have h : ((rows.map key).dedup.map id).Nodup := by simpa using List.nodup_dedup (rows.map key)
  simpa [groupKeys] using orderBy_strict h

theorem aggregate_keys (key : α → κ) (f : List α → β) (rows : List α) :
    (aggregate key f rows).map Prod.fst = groupKeys key rows := by
  simp [aggregate, Function.comp_def]

theorem mem_aggregate {f : List α → β} {e : κ × β} :
    e ∈ aggregate key f rows ↔
      (∃ a ∈ rows, key a = e.1) ∧ e.2 = f (rows.filter fun a => key a = e.1) := by
  unfold aggregate
  rw [List.mem_map]
  constructor
  · rintro ⟨k, hk, rfl⟩
    exact ⟨mem_groupKeys.mp hk, rfl⟩
  · rintro ⟨hk, hv⟩
    exact ⟨e.1, mem_groupKeys.mpr hk, by rw [← hv]⟩

/-- The entries of a `GROUP BY … ORDER BY` come in strictly ascending key order. -/
theorem aggregate_sorted (key : α → κ) (f : List α → β) (rows : List α) :
    ((aggregate key f rows).map Prod.fst).Pairwise (· < ·) :=
  aggregate_keys key f rows ▸ groupKeys_sorted key rows

theorem netTotals_sorted [AddCommMonoid V] [DecidableEq V] (entries : List (κ × V)) :
    ((netTotals entries).map Prod.fst).Pairwise (· < ·) :=
  (aggregate_sorted _ _ entries).sublist (List.filter_sublist.map Prod.fst)

/-! ## Totals -/

section Totals

variable [AddCommMonoid V]

@[simp] theorem totalAt_nil (k : κ) : totalAt ([] : List (κ × V)) k = 0 := by simp [totalAt]

theorem totalAt_cons (e : κ × V) (entries : List (κ × V)) (k : κ) :
    totalAt (e :: entries) k = (if e.1 = k then e.2 else 0) + totalAt entries k := by
  by_cases h : e.1 = k <;> simp [totalAt, h]

theorem totalAt_append (es es' : List (κ × V)) (k : κ) :
    totalAt (es ++ es') k = totalAt es k + totalAt es' k := by simp [totalAt]

/-- No entry for `k`, no total. -/
theorem totalAt_of_notMem {entries : List (κ × V)} (h : k ∉ entries.map Prod.fst) :
    totalAt entries k = 0 := by
  have : entries.filter (fun e => e.1 = k) = [] := by
    rw [List.filter_eq_nil_iff]
    intro e he hk
    exact h (List.mem_map.mpr ⟨e, he, by simpa using hk⟩)
  simp [totalAt, this]

/-- With different keys an entry is the whole total of its key. -/
theorem totalAt_of_mem {entries : List (κ × V)} (h : (entries.map Prod.fst).Nodup) {e : κ × V}
    (he : e ∈ entries) : totalAt entries e.1 = e.2 := by
  induction entries with
  | nil => simp at he
  | cons e' entries ih =>
    rw [List.map_cons, List.nodup_cons] at h
    rw [totalAt_cons]
    rcases List.mem_cons.mp he with rfl | he
    · rw [if_pos rfl, totalAt_of_notMem h.1, add_zero]
    · have hne : e'.1 ≠ e.1 := fun heq => h.1 (heq ▸ List.mem_map_of_mem he)
      rw [if_neg hne, zero_add, ih h.2 he]

/-- The total of a `GROUP BY` query: the aggregate of the key's rows. -/
theorem totalAt_aggregate {f : List α → V} (hf : f [] = 0) (key : α → κ) (rows : List α) (k : κ) :
    totalAt (aggregate key f rows) k = f (rows.filter fun a => key a = k) := by
  have hnd : ((aggregate key f rows).map Prod.fst).Nodup :=
    (aggregate_sorted key f rows).imp ne_of_lt
  by_cases hk : ∃ a ∈ rows, key a = k
  · have he : (k, f (rows.filter fun a => key a = k)) ∈ aggregate key f rows :=
      mem_aggregate.mpr ⟨hk, rfl⟩
    exact totalAt_of_mem hnd he
  · have hempty : rows.filter (fun a => key a = k) = [] := by
      rw [List.filter_eq_nil_iff]
      exact fun a ha h => hk ⟨a, ha, by simpa using h⟩
    rw [hempty, hf]
    refine totalAt_of_notMem ?_
    rw [aggregate_keys, mem_groupKeys]
    exact hk

/-- `HAVING SUM <> 0` leaves every total as it was. -/
theorem totalAt_netTotals [DecidableEq V] (entries : List (κ × V)) (k : κ) :
    totalAt (netTotals entries) k = totalAt entries k := by
  have hfilter : ∀ es : List (κ × V), totalAt (es.filter fun e => e.2 ≠ 0) k = totalAt es k := by
    intro es
    induction es with
    | nil => rfl
    | cons e es ih =>
      by_cases he : e.2 = 0
      · rw [List.filter_cons_of_neg (by simpa using he), ih, totalAt_cons, he]
        simp
      · rw [List.filter_cons_of_pos (by simpa using he), totalAt_cons, totalAt_cons, ih]
  rw [netTotals, hfilter, totalAt_aggregate (by simp)]
  rfl

/-- The keys that `HAVING SUM <> 0` keeps. -/
theorem mem_netTotals_keys [DecidableEq V] {entries : List (κ × V)} {k : κ} :
    k ∈ (netTotals entries).map Prod.fst ↔ totalAt entries k ≠ 0 := by
  have hnd : ((netTotals entries).map Prod.fst).Nodup := (netTotals_sorted entries).imp ne_of_lt
  rw [← totalAt_netTotals]
  constructor
  · intro hk
    obtain ⟨e, he, rfl⟩ := List.mem_map.mp hk
    rw [totalAt_of_mem hnd he]
    simpa using (List.mem_filter.mp he).2
  · intro hne
    by_contra hk
    exact hne (totalAt_of_notMem hk)

end Totals

/-! ## Counting by groups -/

/-- Rows counted key by key, over keys that cover them all. -/
theorem sum_countP_keys {keys : List κ} (hnd : keys.Nodup) {rows : List α}
    (hcover : ∀ a ∈ rows, key a ∈ keys) (p : α → Bool) :
    (keys.map fun k => (rows.filter fun a => key a = k).countP p).sum = rows.countP p := by
  -- induction on the rows: the first one counts for the one key it has
  induction rows with
  | nil => simp
  | cons a rows ih =>
    have hone : ∀ k, ((a :: rows).filter fun b => key b = k).countP p =
        (rows.filter fun b => key b = k).countP p + if key a = k then [a].countP p else 0 := by
      intro k
      by_cases hk : key a = k <;> simp [hk, List.countP_cons]
    simp only [hone, List.sum_map_add, ih fun b hb => hcover b (List.mem_cons_of_mem a hb)]
    rw [List.sum_map_eq_nsmul_single (key a) _ fun k hk _ => if_neg (Ne.symm hk),
      List.count_eq_one_of_mem hnd (hcover a List.mem_cons_self)]
    simp [List.countP_cons]

/-- The groups of a `GROUP BY` count every row once. -/
theorem sum_aggregate_countP (key : α → κ) (p : α → Bool) (rows : List α) :
    ((groupKeys key rows).map fun k => (rows.filter fun a => key a = k).countP p).sum =
      rows.countP p :=
  sum_countP_keys ((groupKeys_sorted key rows).imp ne_of_lt)
    (fun a ha => mem_groupKeys.mpr ⟨a, ha, rfl⟩) p

/-! ## Left joins -/

/-- `LEFT JOIN entries ON …` for one row: the entries that match, or one row of NULLs. -/
def leftJoin (on : β → Bool) (entries : List β) : List (Option β) :=
  match entries.filter on with
  | [] => [none]
  | matching => matching.map some

/-- A join with the groups of a query that match one key only: it gives one row, and
    `COALESCE(…, 0)` of a column is the column of the key's group. -/
theorem leftJoin_aggregate (key : α → κ) (f : List α → β) (rows : List α) (on : κ → Bool) (k : κ)
    (hon : ∀ a ∈ rows, on (key a) ↔ key a = k) :
    ∃ o, leftJoin (fun e => on e.1) (aggregate key f rows) = [o] ∧
      ∀ column : β → Int, column (f []) = 0 →
        (o.map fun e => column e.2).getD 0 = column (f (rows.filter fun a => key a = k)) := by
  have hfilter : (aggregate key f rows).filter (fun e => on e.1) =
      ((groupKeys key rows).filter fun k' => k' = k).map fun k' =>
        (k', f (rows.filter fun a => key a = k')) := by
    rw [aggregate, List.filter_map]
    congr 1
    refine List.filter_congr fun k' hk' => ?_
    obtain ⟨a, ha, rfl⟩ := mem_groupKeys.mp hk'
    exact Bool.eq_iff_iff.mpr ((hon a ha).trans decide_eq_true_iff.symm)
  have hnd : (groupKeys key rows).Nodup := (groupKeys_sorted key rows).imp ne_of_lt
  by_cases hk : k ∈ groupKeys key rows
  · refine ⟨some (k, f (rows.filter fun a => key a = k)), ?_, fun column _ => rfl⟩
    rw [leftJoin, hfilter, List.filter_eq, List.count_eq_one_of_mem hnd hk]
    rfl
  · refine ⟨none, ?_, fun column hzero => ?_⟩
    · rw [leftJoin, hfilter, List.filter_eq, List.count_eq_zero_of_not_mem hk]
      rfl
    · have hempty : rows.filter (fun a => key a = k) = [] := by
        rw [List.filter_eq_nil_iff]
        exact fun a ha h => hk (mem_groupKeys.mpr ⟨a, ha, by simpa using h⟩)
      rw [hempty, hzero]
      rfl

end Relational
