/-
  A row of a table that transactions write one at a time.

  The row has a committed version, or none yet, and at most one uncommitted version, which its
  writer alone sees.  A transaction that wants to write waits while another's version is
  uncommitted, and then writes on top of the newest version.  Rows are not deleted.
-/
import Mathlib.Data.Option.Basic
import Mathlib.Logic.Basic

namespace Concurrency

variable {α τ : Type*}

/-- The versions of a row. -/
structure VersionedRow (α τ : Type*) where
  committed : Option α
  uncommitted : Option (τ × α)
deriving DecidableEq

namespace VersionedRow

def initial (committed : Option α) : VersionedRow α τ := ⟨committed, none⟩

variable [DecidableEq τ]

/-- The version that the transaction has written and not committed. -/
def writtenBy (r : VersionedRow α τ) (t : τ) : Option α :=
  match r.uncommitted with
  | some (writer, version) => if writer = t then some version else none
  | none => none

/-- Another transaction has written the row and has not ended. -/
def blocks (r : VersionedRow α τ) (t : τ) : Bool := r.uncommitted.any fun w => w.1 ≠ t

/-- The version that a write of the transaction starts from. -/
def latest (r : VersionedRow α τ) (t : τ) : Option α := (r.writtenBy t).or r.committed

/-- A snapshot taken now by the transaction has a version of the row. -/
def visible (r : VersionedRow α τ) (t : τ) : Bool := (r.latest t).isSome

def write (r : VersionedRow α τ) (t : τ) (version : α) : VersionedRow α τ :=
  { r with uncommitted := some (t, version) }

def commit (r : VersionedRow α τ) (t : τ) : VersionedRow α τ :=
  match r.writtenBy t with
  | some version => ⟨some version, none⟩
  | none => r

def abort (r : VersionedRow α τ) (t : τ) : VersionedRow α τ :=
  match r.writtenBy t with
  | some _ => { r with uncommitted := none }
  | none => r

variable {r : VersionedRow α τ} {t t' : τ} {version : α}

theorem writtenBy_eq_some : r.writtenBy t = some version ↔ r.uncommitted = some (t, version) := by
  unfold writtenBy
  cases r.uncommitted with
  | none => simp
  | some w =>
    obtain ⟨writer, written⟩ := w
    simp only [Option.ite_none_right_eq_some, Option.some.injEq, Prod.mk.injEq]

/-- There is one uncommitted version at most. -/
theorem writer_unique {other : α} (h : r.writtenBy t = some version)
    (h' : r.writtenBy t' = some other) : t = t' := by
  rw [writtenBy_eq_some] at h h'
  rw [h, Option.some.injEq, Prod.mk.injEq] at h'
  exact h'.1

theorem writtenBy_of_not_blocks (h : r.blocks t = false) (hne : t' ≠ t) :
    r.writtenBy t' = none := by
  rw [Option.eq_none_iff_forall_ne_some]
  intro version hwritten
  rw [writtenBy_eq_some] at hwritten
  simp [blocks, hwritten, hne] at h

theorem latest_of_writtenBy (h : r.writtenBy t = some version) : r.latest t = some version := by
  rw [latest, h, Option.some_or]

theorem latest_of_not_writtenBy (h : r.writtenBy t = none) : r.latest t = r.committed := by
  rw [latest, h, Option.none_or]

/-! ## Writing -/

omit [DecidableEq τ] in
@[simp] theorem write_committed : (r.write t version).committed = r.committed := rfl

@[simp] theorem writtenBy_write : (r.write t version).writtenBy t = some version := by
  rw [writtenBy_eq_some, write]

theorem writtenBy_write_other (hne : t' ≠ t) : (r.write t version).writtenBy t' = none := by
  show (if t = t' then _ else none) = none
  rw [if_neg (Ne.symm hne)]

@[simp] theorem latest_write : (r.write t version).latest t = some version :=
  latest_of_writtenBy writtenBy_write

/-! ## The end of a transaction -/

/-- A commit makes the transaction's newest version the committed one. -/
theorem commit_committed : (r.commit t).committed = r.latest t := by
  unfold commit
  cases h : r.writtenBy t with
  | some version => exact (latest_of_writtenBy h).symm
  | none => exact (latest_of_not_writtenBy h).symm

theorem writtenBy_commit_self : (r.commit t).writtenBy t = none := by
  unfold commit
  cases h : r.writtenBy t with
  | some version => rfl
  | none => exact h

/-- A version is of one writer, so the commit of another leaves nothing or everything. -/
theorem commit_other (hne : t' ≠ t) :
    (r.commit t).writtenBy t' = r.writtenBy t' ∧
      ((r.commit t).committed = r.committed ∨ r.writtenBy t' = none) := by
  unfold commit
  cases h : r.writtenBy t with
  | none => exact ⟨rfl, Or.inl rfl⟩
  | some version =>
    have hnone : r.writtenBy t' = none := by
      rw [Option.eq_none_iff_forall_ne_some]
      exact fun other hother => hne (writer_unique hother h)
    exact ⟨hnone.symm, Or.inr hnone⟩

/-- Once the row has been committed it stays. -/
theorem commit_committed_ne_none (h : r.committed ≠ none) : (r.commit t).committed ≠ none := by
  rw [commit_committed, latest]
  cases r.writtenBy t with
  | some version => simp
  | none => exact h

@[simp] theorem abort_committed : (r.abort t).committed = r.committed := by
  unfold abort
  cases r.writtenBy t <;> rfl

theorem writtenBy_abort_self : (r.abort t).writtenBy t = none := by
  unfold abort
  cases h : r.writtenBy t with
  | some version => rfl
  | none => exact h

theorem writtenBy_abort_other (hne : t' ≠ t) : (r.abort t).writtenBy t' = r.writtenBy t' := by
  unfold abort
  cases h : r.writtenBy t with
  | none => rfl
  | some version =>
    show none = _
    rw [eq_comm, Option.eq_none_iff_forall_ne_some]
    exact fun other hother => hne (writer_unique hother h)

end VersionedRow

end Concurrency
