/-
  Which rows a scan leaves behind.

  A scan visits its rows in their order.  If it leaves a row behind only with an excuse, then a
  row that comes before a picked one was picked too or is excused; and if the limit has not been
  reached, so is every row.
-/
import Retsu.Concurrency.Scan

namespace Concurrency.Scan

variable {κ α : Type} {rows : List κ} {excused excused' : κ → Prop} {scan : Scan κ} {key : κ}

/-- The rows visited so far are the first ones; some were picked, and each other is excused. -/
structure Accounts (rows : List κ) (excused : κ → Prop) (scan : Scan κ) : Prop where
  visited : ∃ visited, rows = visited ++ scan.pending ∧ (∀ key ∈ scan.picked, key ∈ visited) ∧
    ∀ key ∈ visited, key ∈ scan.picked ∨ excused key

/-- Before the first visit. -/
theorem Accounts.unvisited (hpicked : scan.picked = []) : scan.Accounts scan.pending excused where
  visited := ⟨[], rfl, by simp [hpicked], by simp⟩

theorem Accounts.mono (h : scan.Accounts rows excused) (hmono : ∀ key, excused key → excused' key) :
    scan.Accounts rows excused' where
  visited := by
    obtain ⟨visited, hrows, hpicked, hvisited⟩ := h.visited
    exact ⟨visited, hrows, hpicked, fun key hkey => (hvisited key hkey).imp_right (hmono key)⟩

theorem Accounts.pass (h : scan.Accounts rows excused) (hnext : scan.next = some key)
    (hexcused : excused key) : scan.pass.Accounts rows excused where
  visited := by
    obtain ⟨-, hpending⟩ := next_eq_some hnext
    obtain ⟨visited, hrows, hpicked, hvisited⟩ := h.visited
    refine ⟨visited ++ [key], ?_, fun other hother => ?_, fun other hother => ?_⟩
    · rw [pass_pending, List.append_assoc, List.singleton_append, ← hpending]
      exact hrows
    · exact List.mem_append_left _ (hpicked other hother)
    · rcases List.mem_append.mp hother with hbefore | hthis
      · exact hvisited other hbefore
      · obtain rfl := List.mem_singleton.mp hthis
        exact Or.inr hexcused

theorem Accounts.pick (h : scan.Accounts rows excused) (hnext : scan.next = some key) :
    (scan.pick key).Accounts rows excused where
  visited := by
    obtain ⟨-, hpending⟩ := next_eq_some hnext
    obtain ⟨visited, hrows, hpicked, hvisited⟩ := h.visited
    refine ⟨visited ++ [key], ?_, fun other hother => ?_, fun other hother => ?_⟩
    · rw [pick_pending, List.append_assoc, List.singleton_append, ← hpending]
      exact hrows
    · rw [pick_picked] at hother
      exact (List.mem_append.mp hother).elim
        (fun hbefore => List.mem_append_left _ (hpicked other hbefore)) (List.mem_append_right _)
    · rw [pick_picked]
      rcases List.mem_append.mp hother with hbefore | hthis
      · exact (hvisited other hbefore).imp_left (List.mem_append_left _)
      · exact Or.inl (List.mem_append_right _ hthis)

theorem Accounts.picked_mem (h : scan.Accounts rows excused) (hkey : key ∈ scan.picked) :
    key ∈ rows := by
  obtain ⟨visited, hrows, hpicked, -⟩ := h.visited
  rw [hrows]
  exact List.mem_append_left _ (hpicked key hkey)

/-- **No row is overtaken without an excuse**: `b` was picked, and `a` does not come after it. -/
theorem Accounts.overtaken {items : List α} {id : α → κ} {R : α → α → Prop}
    (h : scan.Accounts (items.map id) excused) (hids : (items.map id).Nodup)
    (hsorted : items.Pairwise R) {a b : α} (ha : a ∈ items) (hb : b ∈ items)
    (hpicked : id b ∈ scan.picked) (hbefore : ¬R b a) : id a ∈ scan.picked ∨ excused (id a) := by
  obtain ⟨visited, hrows, hvisits, hvisited⟩ := h.visited
  obtain ⟨seen, unseen, rfl, hseen, hunseen⟩ := List.map_eq_append_iff.mp hrows
  rcases List.mem_append.mp ha with hfirst | hrest
  · exact hvisited (id a) (hseen ▸ List.mem_map_of_mem hfirst)
  -- a row that is still pending comes after all that have been picked
  · have hbvisited := hvisits (id b) hpicked
    rw [← hseen] at hbvisited
    obtain ⟨b', hb', hid⟩ := List.mem_map.mp hbvisited
    obtain rfl : b' = b :=
      List.inj_on_of_nodup_map hids (List.mem_append_left _ hb') hb hid
    exact absurd ((List.pairwise_append.mp hsorted).2.2 b' hb' a hrest) hbefore

/-- A scan that has ended before its limit has picked every row that is not excused. -/
theorem Accounts.complete {limit : Nat} (h : scan.Accounts rows excused)
    (hscan : scan.WellFormed limit) (hnext : scan.next = none)
    (hshort : scan.picked.length < limit) : ∀ key ∈ rows, key ∈ scan.picked ∨ excused key := by
  intro key hkey
  obtain ⟨visited, hrows, -, hvisited⟩ := h.visited
  have hlimit := hscan.limit
  have hpending : scan.pending = [] := by
    rcases next_eq_none.mp hnext with hwanted | hpending
    · omega
    · exact hpending
  rw [hrows, hpending, List.append_nil] at hkey
  exact hvisited key hkey

end Concurrency.Scan
