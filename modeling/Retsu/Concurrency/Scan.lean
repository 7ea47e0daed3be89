/-
  Scans that lock rows up to a limit: `ORDER BY … FOR UPDATE SKIP LOCKED LIMIT n`.

  A scan visits the rows its snapshot selected, in their order.  It passes over a row that
  another transaction has locked or that no longer qualifies, picks one that still does, and
  ends with the limit or with the last row.
-/
import Mathlib.Data.List.Nodup

namespace Concurrency

structure Scan (κ : Type) where
  /-- The rows still to be visited. -/
  pending : List κ
  /-- How many rows the limit still allows. -/
  wanted : Nat
  picked : List κ

namespace Scan

variable {κ : Type} {scan : Scan κ} {key : κ}

/-- A scan of nothing. -/
def idle : Scan κ := ⟨[], 0, []⟩

def start (rows : List κ) (limit : Nat) : Scan κ := ⟨rows, limit, []⟩

/-- The row that is visited next, if the scan is not over. -/
def next (scan : Scan κ) : Option κ := if scan.wanted = 0 then none else scan.pending.head?

def pass (scan : Scan κ) : Scan κ := { scan with pending := scan.pending.tail }

def pick (scan : Scan κ) (key : κ) : Scan κ where
  pending := scan.pending.tail
  wanted := scan.wanted - 1
  picked := scan.picked ++ [key]

@[simp] theorem idle_picked : (idle : Scan κ).picked = [] := rfl
@[simp] theorem idle_pending : (idle : Scan κ).pending = [] := rfl
@[simp] theorem start_picked (rows : List κ) (limit : Nat) : (start rows limit).picked = [] := rfl
@[simp] theorem start_pending (rows : List κ) (limit : Nat) :
    (start rows limit).pending = rows := rfl
@[simp] theorem start_wanted (rows : List κ) (limit : Nat) : (start rows limit).wanted = limit :=
  rfl
@[simp] theorem pass_picked : scan.pass.picked = scan.picked := rfl
@[simp] theorem pass_pending : scan.pass.pending = scan.pending.tail := rfl
@[simp] theorem pass_wanted : scan.pass.wanted = scan.wanted := rfl
@[simp] theorem pick_picked : (scan.pick key).picked = scan.picked ++ [key] := rfl
@[simp] theorem pick_pending : (scan.pick key).pending = scan.pending.tail := rfl
@[simp] theorem pick_wanted : (scan.pick key).wanted = scan.wanted - 1 := rfl

theorem next_eq_some (h : scan.next = some key) :
    scan.wanted ≠ 0 ∧ scan.pending = key :: scan.pending.tail := by
  unfold next at h
  split at h
  · simp at h
  · rename_i hwanted
    obtain ⟨rest, hrest⟩ := List.head?_eq_some_iff.mp h
    exact ⟨hwanted, by rw [hrest, List.tail_cons]⟩

theorem next_eq_none : scan.next = none ↔ scan.wanted = 0 ∨ scan.pending = [] := by
  unfold next
  split
  · rename_i hwanted
    simp [hwanted]
  · rename_i hwanted
    simp [hwanted]

/-- What a scan has picked and what it may still visit are different rows, and at most as many
    as the limit are picked. -/
structure WellFormed (limit : Nat) (scan : Scan κ) : Prop where
  rows : (scan.picked ++ scan.pending).Nodup
  limit : scan.picked.length + scan.wanted = limit

theorem idle_wellFormed : (idle : Scan κ).WellFormed 0 := ⟨List.nodup_nil, rfl⟩

theorem start_wellFormed {rows : List κ} (h : rows.Nodup) (limit : Nat) :
    (start rows limit).WellFormed limit :=
  ⟨h, Nat.zero_add limit⟩

theorem WellFormed.pass {limit : Nat} (h : scan.WellFormed limit) :
    scan.pass.WellFormed limit :=
  ⟨((List.tail_sublist _).append_left _).nodup h.rows, h.limit⟩

theorem WellFormed.pick {limit : Nat} (h : scan.WellFormed limit) (hnext : scan.next = some key) :
    (scan.pick key).WellFormed limit := by
  obtain ⟨hwanted, hpending⟩ := next_eq_some hnext
  have hrows := h.rows
  rw [hpending, List.append_cons] at hrows
  refine ⟨hrows, ?_⟩
  have := h.limit
  simp only [pick_picked, pick_wanted, List.length_append, List.length_singleton]
  omega

theorem WellFormed.picked_nodup {limit : Nat} (h : scan.WellFormed limit) : scan.picked.Nodup :=
  (List.nodup_append.mp h.rows).1

theorem WellFormed.picked_length {limit : Nat} (h : scan.WellFormed limit) :
    scan.picked.length ≤ limit := by
  have := h.limit
  omega

/-- A scan of one row, or of none: the row is still to be visited, or the scan is over. -/
def Single (key : κ) (scan : Scan κ) : Prop :=
  scan = .start [key] 1 ∨ scan.pending = [] ∧ (scan.picked = [] ∨ scan.picked = [key])

/-- A scan of one row that is not over has not picked the row. -/
theorem Single.of_next {key' : κ} (h : scan.Single key) (hnext : scan.next = some key') :
    scan = .start [key] 1 ∧ key' = key := by
  rcases h with rfl | ⟨hpending, -⟩
  · simpa [next, eq_comm] using hnext
  · rw [(next_eq_some hnext).2] at hpending
    simp at hpending

theorem Single.pass {key' : κ} (h : scan.Single key) (hnext : scan.next = some key') :
    scan.pass.Single key := by
  obtain ⟨rfl, -⟩ := h.of_next hnext
  exact Or.inr ⟨rfl, Or.inl rfl⟩

theorem Single.pick {key' : κ} (h : scan.Single key) (hnext : scan.next = some key') :
    (scan.pick key').Single key := by
  obtain ⟨rfl, rfl⟩ := h.of_next hnext
  exact Or.inr ⟨rfl, Or.inr rfl⟩

end Scan

end Concurrency
