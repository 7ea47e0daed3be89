/-
  Executions of a transition system, whose step function fails where an action is not enabled.

  `Execution step allowed start s`: `s` is reached from `start` by steps whose actions `allowed`
  permits in the state they are taken in.  The invariant rule is the one induction over
  executions; everything else about them is proved with it.
-/
import Mathlib.Data.List.Basic

namespace Concurrency

variable {σ α : Type*} {step : σ → α → Option σ} {allowed : σ → α → Prop} {start s s' : σ}

/-- The states reached by permitted steps. -/
inductive Execution (step : σ → α → Option σ) (allowed : σ → α → Prop) (start : σ) : σ → Prop
  | refl : Execution step allowed start start
  | step {s s' : σ} {a : α} (run : Execution step allowed start s) (hallowed : allowed s a)
      (hstep : step s a = some s') : Execution step allowed start s'

/-- Every action is permitted. -/
def anyAction (_ : σ) (_ : α) : Prop := True

instance (s : σ) (a : α) : Decidable (anyAction s a) := inferInstanceAs (Decidable True)

/-- What holds at the start and is preserved by the permitted steps holds in every state. -/
theorem Execution.invariant {I : σ → Prop} (run : Execution step allowed start s)
    (hstart : I start)
    (hstep : ∀ s a s', Execution step allowed start s → I s → allowed s a → step s a = some s' →
      I s') : I s := by
  induction run with
  | refl => exact hstart
  | step run hallowed hs ih => exact hstep _ _ _ run ih hallowed hs

theorem Execution.trans (run : Execution step allowed start s)
    (run' : Execution step allowed s s') : Execution step allowed start s' :=
  run'.invariant run fun _ _ _ _ hrun hallowed hstep => .step hrun hallowed hstep

/-- More may be permitted. -/
theorem Execution.mono {allowed' : σ → α → Prop} (run : Execution step allowed start s)
    (h : ∀ s a, allowed s a → allowed' s a) : Execution step allowed' start s :=
  run.invariant .refl fun _ _ _ _ hrun hallowed hstep => .step hrun (h _ _ hallowed) hstep

theorem Execution.any (run : Execution step allowed start s) :
    Execution step anyAction start s :=
  run.mono fun _ _ _ => trivial

/-- Takes actions one after the other, as long as they are permitted and possible. -/
def runAllowed (step : σ → α → Option σ) (allowed : σ → α → Prop)
    [∀ s a, Decidable (allowed s a)] (start : σ) (actions : List α) : Option σ :=
  actions.foldlM (fun s a => if allowed s a then step s a else none) start

section Runs

variable [∀ s a, Decidable (allowed s a)] {actions more : List α}

theorem runAllowed_cons {a : α} :
    runAllowed step allowed start (a :: actions) = some s ↔
      ∃ s₁, allowed start a ∧ step start a = some s₁ ∧
        runAllowed step allowed s₁ actions = some s := by
  simp only [runAllowed, List.foldlM_cons]
  constructor
  · intro h
    obtain ⟨s₁, hstep, hrest⟩ := Option.bind_eq_some_iff.mp h
    rw [Option.ite_none_right_eq_some] at hstep
    exact ⟨s₁, hstep.1, hstep.2, hrest⟩
  · rintro ⟨s₁, hallowed, hstep, hrest⟩
    rw [if_pos hallowed, hstep]
    exact hrest

theorem execution_of_runAllowed (h : runAllowed step allowed start actions = some s) :
    Execution step allowed start s := by
  induction actions generalizing start with
  | nil =>
    obtain rfl := Option.some.inj h
    exact .refl
  | cons a actions ih =>
    obtain ⟨s₁, hallowed, hstep, hrest⟩ := runAllowed_cons.mp h
    exact (Execution.step .refl hallowed hstep).trans (ih hrest)

/-- The rest of a run goes on from where its first actions have led. -/
theorem runAllowed_rest (hfirst : runAllowed step allowed start actions = some s)
    (h : runAllowed step allowed start (actions ++ more) = some s') :
    runAllowed step allowed s more = some s' := by
  rw [runAllowed, List.foldlM_append] at h
  obtain ⟨u, hu, hrest⟩ := Option.bind_eq_some_iff.mp h
  obtain rfl : s = u := Option.some.inj (hfirst.symm.trans hu)
  exact hrest

end Runs

/-- Wherever a property has come to hold, there is the step that made it hold. -/
theorem Execution.turning {P : σ → Prop} (run : Execution step allowed start s)
    (hstart : ¬P start) (hs : P s) :
    ∃ s₀ a s₁, Execution step allowed start s₀ ∧ allowed s₀ a ∧ step s₀ a = some s₁ ∧ ¬P s₀ ∧
      P s₁ ∧ Execution step allowed s₁ s := by
  induction run with
  | refl => exact absurd hs hstart
  | @step s s' a run hallowed hstep ih =>
    by_cases hP : P s
    · obtain ⟨s₀, a₀, s₁, hrun, hallowed₀, hstep₀, hno, hyes, hrest⟩ := ih hP
      exact ⟨s₀, a₀, s₁, hrun, hallowed₀, hstep₀, hno, hyes, .step hrest hallowed hstep⟩
    · exact ⟨s, a, s', run, hallowed, hstep, hP, hs, .refl⟩

end Concurrency
