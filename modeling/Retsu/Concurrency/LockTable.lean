/-
  Exclusive locks, and transactions that wait for them.

  A lock table says who holds a lock; no two transactions can hold the same one.  A transaction
  that waits for a lock waits for its holder.  When every transaction asks for its locks in
  increasing order of a linear order, no transactions wait for each other in a circle.
-/
import Mathlib.Logic.Relation
import Mathlib.Order.Lattice

namespace Concurrency

variable {κ τ : Type*}

/-- The holder of each lock. -/
def LockTable (κ τ : Type*) := κ → Option τ

namespace LockTable

def empty : LockTable κ τ := fun _ => none

variable [DecidableEq τ]

/-- Another transaction holds the lock. -/
def blocks (locks : LockTable κ τ) (t : τ) (k : κ) : Bool :=
  match locks k with
  | none => false
  | some holder => holder ≠ t

/-- Releases every lock of a transaction. -/
def release (locks : LockTable κ τ) (t : τ) : LockTable κ τ := fun k =>
  if locks k = some t then none else locks k

variable {locks : LockTable κ τ} {t t' : τ} {k k' : κ}

theorem blocks_eq_true : locks.blocks t k = true ↔ ∃ t', locks k = some t' ∧ t' ≠ t := by
  unfold blocks
  cases locks k <;> simp

theorem blocks_eq_false : locks.blocks t k = false ↔ locks k = none ∨ locks k = some t := by
  unfold blocks
  cases locks k <;> simp

theorem release_eq_some : locks.release t k = some t' ↔ locks k = some t' ∧ t' ≠ t := by
  unfold release
  split
  · rename_i hk
    simp only [reduceCtorEq, false_iff, hk, Option.some.injEq, not_and, not_not]
    exact fun h => h.symm
  · rename_i hk
    exact ⟨fun h => ⟨h, fun heq => hk (heq ▸ h)⟩, And.left⟩

variable [DecidableEq κ]

def acquire (locks : LockTable κ τ) (t : τ) (k : κ) : LockTable κ τ := fun k' =>
  if k' = k then some t else locks k'

omit [DecidableEq τ] in
theorem acquire_eq_some :
    locks.acquire t k k' = some t' ↔ (k' = k ∧ t' = t) ∨ (k' ≠ k ∧ locks k' = some t') := by
  unfold acquire
  split
  · rename_i hk
    simp [hk, eq_comm]
  · rename_i hk
    simp [hk]

/-- A transaction that takes a lock which is not another's keeps the locks of the others. -/
theorem acquire_other (hfree : locks.blocks t k = false) (hne : t' ≠ t) :
    locks.acquire t k k' = some t' ↔ locks k' = some t' := by
  rw [acquire_eq_some]
  constructor
  · rintro (⟨-, rfl⟩ | ⟨-, h⟩)
    · exact absurd rfl hne
    · exact h
  · intro h
    refine Or.inr ⟨?_, h⟩
    rintro rfl
    rcases blocks_eq_false.mp hfree with hnone | hown
    · rw [hnone] at h
      simp at h
    · rw [hown] at h
      exact hne (Option.some.inj h).symm

omit [DecidableEq τ] in
/-- A transaction that takes another lock keeps those it has. -/
theorem acquire_own (h : locks k' = some t) : locks.acquire t k k' = some t := by
  rw [acquire_eq_some]
  by_cases hk : k' = k
  · exact Or.inl ⟨hk, rfl⟩
  · exact Or.inr ⟨hk, h⟩

end LockTable

/-! ## Waiting -/

variable {locks : LockTable κ τ} {next : τ → Option κ}

/-- `t` asks for a lock that `t'` holds. -/
def WaitsFor (locks : LockTable κ τ) (next : τ → Option κ) (t t' : τ) : Prop :=
  ∃ k, next t = some k ∧ locks k = some t' ∧ t' ≠ t

/-- Transactions that wait for each other in a circle. -/
def Deadlock (locks : LockTable κ τ) (next : τ → Option κ) : Prop :=
  ∃ t, Relation.TransGen (WaitsFor locks next) t t

/-- Every transaction asks for a lock that is not below the locks it holds. -/
def InLockOrder [LinearOrder κ] (locks : LockTable κ τ) (next : τ → Option κ) : Prop :=
  ∀ t held asked, locks held = some t → next t = some asked → held ≤ asked

/-- The last lock along a chain of waits is not below the first. -/
theorem InLockOrder.chain [LinearOrder κ] (h : InLockOrder locks next) {t t' : τ}
    (hchain : Relation.TransGen (WaitsFor locks next) t t') :
    ∃ first last, next t = some first ∧ locks last = some t' ∧ first ≤ last := by
  induction hchain with
  | single hwait =>
    obtain ⟨k, hnext, hheld, -⟩ := hwait
    exact ⟨k, k, hnext, hheld, le_rfl⟩
  | tail _ hwait ih =>
    obtain ⟨first, last, hfirst, hlast, hle⟩ := ih
    obtain ⟨k, hnext, hheld, -⟩ := hwait
    exact ⟨first, k, hfirst, hheld, hle.trans (h _ _ _ hlast hnext)⟩

/-- **Locks taken in order never deadlock.** -/
theorem InLockOrder.no_deadlock [LinearOrder κ] (h : InLockOrder locks next) :
    ¬Deadlock locks next := by
  rintro ⟨t, hcycle⟩
  obtain ⟨first, last, hfirst, hlast, hle⟩ := h.chain hcycle
  -- the first lock is the last one, so `t` holds what it asks for
  obtain rfl : first = last := le_antisymm hle (h t last first hlast hfirst)
  obtain ⟨t', hwait, -⟩ := Relation.TransGen.head'_iff.mp hcycle
  obtain ⟨k, hnext, hheld, hne⟩ := hwait
  obtain rfl : first = k := Option.some.inj (hfirst.symm.trans hnext)
  exact hne (Option.some.inj (hheld.symm.trans hlast))

end Concurrency
