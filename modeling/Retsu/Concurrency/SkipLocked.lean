/-
  Concurrent scans of one list of rows, each of which takes the first row that nobody else has.

  A row is claimed once a scan has picked it, and stays so.  A scan passes over claimed rows
  only; so when it picks a row, all rows before it are claimed (`Covers.claim`), and the claimed
  rows are always the first ones of the list (`ClaimedInOrder.perm_take`), however the scans are
  interleaved.
-/
import Retsu.Concurrency.Scan

namespace Concurrency

variable {κ : Type} {rows : List κ} {claimed claimed' : κ → Prop} {scan : Scan κ} {key : κ}

/-- With a row all rows before it are claimed. -/
def ClaimedInOrder (rows : List κ) (claimed : κ → Prop) : Prop :=
  ∀ a b, [a, b].Sublist rows → claimed b → claimed a

/-- In a list without duplicates a row does not come both before and after another. -/
theorem not_sublist_swap (h : rows.Nodup) {a b : κ} (hab : [a, b].Sublist rows) :
    ¬[b, a].Sublist rows := by
  induction rows with
  | nil => simp at hab
  | cons x rows ih =>
    obtain ⟨hx, hrows⟩ := List.nodup_cons.mp h
    intro hba
    rcases List.sublist_cons_iff.mp hab with hrest | ⟨r, hr, hb⟩ <;>
      rcases List.sublist_cons_iff.mp hba with hrest' | ⟨r', hr', ha⟩
    · exact ih hrows hrest hrest'
    · obtain ⟨rfl, rfl⟩ := List.cons.inj hr'
      exact hx (hrest.subset (List.mem_cons_of_mem _ List.mem_cons_self))
    · obtain ⟨rfl, rfl⟩ := List.cons.inj hr
      exact hx (hrest'.subset (List.mem_cons_of_mem _ List.mem_cons_self))
    · obtain ⟨rfl, rfl⟩ := List.cons.inj hr
      obtain ⟨rfl, rfl⟩ := List.cons.inj hr'
      exact hx (hb.subset List.mem_cons_self)

namespace Scan

/-- What the scan will still visit are rows of the list, in their order, and all others have
    been claimed. -/
structure Covers (rows : List κ) (claimed : κ → Prop) (scan : Scan κ) : Prop where
  pending : scan.pending.Sublist rows
  covered : ∀ key ∈ rows, key ∈ scan.pending ∨ claimed key

theorem Covers.mono (h : scan.Covers rows claimed) (hmono : ∀ key, claimed key → claimed' key) :
    scan.Covers rows claimed' :=
  ⟨h.pending, fun key hkey => (h.covered key hkey).imp_right (hmono key)⟩

/-- A scan may leave a row behind that is claimed. -/
theorem Covers.tail (h : scan.Covers rows claimed) (hnext : scan.next = some key)
    (hkey : claimed key) {scan' : Scan κ} (htail : scan'.pending = scan.pending.tail) :
    scan'.Covers rows claimed := by
  obtain ⟨-, hpending⟩ := next_eq_some hnext
  refine ⟨htail ▸ (List.tail_sublist _).trans h.pending, fun other hother => ?_⟩
  rcases h.covered other hother with hmem | hclaimed
  · rw [hpending] at hmem
    rcases List.mem_cons.mp hmem with rfl | hmem
    · exact Or.inr hkey
    · exact Or.inl (htail ▸ hmem)
  · exact Or.inr hclaimed

/-- The row that a scan visits next comes after claimed rows only. -/
theorem Covers.claim (h : scan.Covers rows claimed) (hnodup : rows.Nodup)
    (hordered : ClaimedInOrder rows claimed) (hnext : scan.next = some key) :
    ClaimedInOrder rows fun other => claimed other ∨ other = key := by
  obtain ⟨-, hpending⟩ := next_eq_some hnext
  rintro a b hab (hb | rfl)
  · exact Or.inl (hordered a b hab hb)
  rcases h.covered a (hab.subset (by simp)) with hmem | hclaimed
  · rw [hpending] at hmem
    rcases List.mem_cons.mp hmem with rfl | hmem
    · exact Or.inr rfl
    -- what is still pending behind the row comes after it
    · have hba : [b, a].Sublist scan.pending := by
        rw [hpending]
        exact (List.singleton_sublist.mpr hmem).cons_cons b
      exact absurd (hba.trans h.pending) (not_sublist_swap hnodup hab)
  · exact Or.inl hclaimed

/-- A scan for one row that has ended without it has found all rows claimed. -/
theorem Covers.exhausted (h : scan.Covers rows claimed) (hscan : scan.WellFormed 1)
    (hnext : scan.next = none) (hpicked : scan.picked = []) : ∀ key ∈ rows, claimed key := by
  intro key hkey
  refine (h.covered key hkey).resolve_left ?_
  have hlimit := hscan.limit
  rw [hpicked, List.length_nil] at hlimit
  rcases next_eq_none.mp hnext with hwanted | hpending
  · omega
  · simp [hpending]

end Scan

/-- **Rows that are claimed in order are the first rows of the list.** -/
theorem ClaimedInOrder.perm_take [DecidableEq κ] {taken : List κ} (hrows : rows.Nodup)
    (htaken : taken.Nodup) (hsub : ∀ key ∈ taken, key ∈ rows)
    (h : ClaimedInOrder rows (· ∈ taken)) : taken.Perm (rows.take taken.length) := by
  have hperm : taken.Perm (rows.filter (· ∈ taken)) := by
    refine (List.perm_ext_iff_of_nodup htaken (hrows.filter _)).mpr fun key => ?_
    simpa using hsub key
  have hinitial : ∀ {rows : List κ}, ClaimedInOrder rows (· ∈ taken) →
      rows.filter (· ∈ taken) <+: rows := by
    intro rows h
    induction rows with
    | nil => exact List.nil_prefix
    | cons x rows ih =>
      have hrest : ClaimedInOrder rows (· ∈ taken) :=
        fun a b hab => h a b (hab.trans (List.sublist_cons_self x rows))
      by_cases hx : x ∈ taken
      · rw [List.filter_cons_of_pos (by simpa using hx)]
        exact List.cons_prefix_cons.mpr ⟨rfl, ih hrest⟩
      -- after a row that is not claimed there are no claimed ones
      · rw [List.filter_eq_nil_iff.mpr]
        · exact List.nil_prefix
        · intro key hkey hclaimed
          rcases List.mem_cons.mp hkey with rfl | hmem
          · exact hx (by simpa using hclaimed)
          · exact hx (h x key ((List.singleton_sublist.mpr hmem).cons_cons x)
              (by simpa using hclaimed))
  rw [hperm.length_eq, ← List.prefix_iff_eq_take.mp (hinitial h)]
  exact hperm

end Concurrency
