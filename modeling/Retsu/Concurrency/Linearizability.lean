/-
  Linearizability.

  Calls of a shared object overlap; each takes some time between the moment it is made and the
  moment it returns.  The object is linearizable if, in every state that is reached, what has been
  done can be put in an order in which it could have been done one operation after the other, and
  which has whatever had returned before whatever had not been made yet.  An operation that changes
  nothing may have decided so before its place in this order, by what it saw then; this was after
  it had been made.

  The rule: an object that keeps a log, to which a call adds itself at one moment while it goes on,
  is linearizable, and the log is the order.
-/
import Retsu.Concurrency.Execution

namespace Concurrency

variable {σ α τ ι ω : Type*}

/-! ## One operation after the other -/

/-- The operations lead from `init` to a state, each as `spec` has it. -/
inductive Sequential (spec : τ → ω → τ → Prop) (init : τ) : List ω → τ → Prop
  | nil : Sequential spec init [] init
  | snoc {past : List ω} {x : ω} {t t' : τ} (run : Sequential spec init past t)
      (hspec : spec t x t') : Sequential spec init (past ++ [x]) t'

/-! ## Calls -/

/-- The calls of an object, by their names: made, and returned with what they have done. -/
structure Calls (σ ι ω : Type*) where
  made : σ → ι → Prop
  returned : σ → ι → ω → Prop

/-- In the list, one entry comes before another. -/
def ComesBefore (entry later : ι × ω) (entries : List (ι × ω)) : Prop :=
  ∃ past rest, entries = past ++ rest ∧ entry ∈ past ∧ later ∈ rest

/-- An order of what has been done in `s`.  `saw` is what a call saw when it decided what to do. -/
structure Linearization (step : σ → α → Option σ) (start : σ) (calls : Calls σ ι ω)
    (spec : τ → ω → τ → Prop) (saw : τ → ω → Prop) (init : τ) (shows : σ → τ → Prop) (s : σ)
    (entries : List (ι × ω)) : Prop where
  /-- It could have been done one operation after the other, and the state shows the result. -/
  legal : ∃ t, Sequential spec init (entries.map Prod.snd) t ∧ shows s t
  /-- No call has done anything twice. -/
  once : (entries.map Prod.fst).Nodup
  made : ∀ entry ∈ entries, calls.made s entry.1
  /-- Whatever has returned has been done. -/
  returned : ∀ i x, calls.returned s i x → (i, x) ∈ entries
  /-- What had returned comes before what had not been made. -/
  realTime : ∀ s₁, Execution step anyAction start s₁ → Execution step anyAction s₁ s →
    ∀ i x j y, calls.returned s₁ i x → ¬calls.made s₁ j → (j, y) ∈ entries →
      ComesBefore (i, x) (j, y) entries
  /-- A call decided what to do in some state since it was made, by what the state showed: the
      result of some of what comes before the call, with all that had returned before it was made. -/
  decided : ∀ s₁, Execution step anyAction start s₁ → Execution step anyAction s₁ s →
    ∀ entry ∈ entries, ¬calls.made s₁ entry.1 → ∃ s₂ past rest t,
      Execution step anyAction s₁ s₂ ∧ Execution step anyAction s₂ s ∧ calls.made s₂ entry.1 ∧
      entries = past ++ rest ∧ entry ∈ rest ∧ Sequential spec init (past.map Prod.snd) t ∧
      shows s₂ t ∧ saw t entry.2 ∧ ∀ i x, calls.returned s₁ i x → (i, x) ∈ past

def Linearizable (step : σ → α → Option σ) (start : σ) (calls : Calls σ ι ω)
    (spec : τ → ω → τ → Prop) (saw : τ → ω → Prop) (init : τ) (shows : σ → τ → Prop) : Prop :=
  ∀ s, Execution step anyAction start s →
    ∃ entries, Linearization step start calls spec saw init shows s entries

/-! ## Logs -/

/-- A log to which calls add themselves at one moment. -/
structure CommitLog (step : σ → α → Option σ) (start : σ) (calls : Calls σ ι ω)
    (spec : τ → ω → τ → Prop) (saw : τ → ω → Prop) (init : τ) (shows : σ → τ → Prop)
    (log : σ → List (ι × ω)) : Prop where
  begins : log start = [] ∧ shows start init
  /-- A step does nothing, or one operation. -/
  appends : ∀ s a s' t, Execution step anyAction start s → step s a = some s' → shows s t →
    (log s' = log s ∧ shows s' t) ∨
      ∃ entry t', log s' = log s ++ [entry] ∧ spec t entry.2 t' ∧ shows s' t'
  once : ∀ s, Execution step anyAction start s → ((log s).map Prod.fst).Nodup
  made : ∀ s, Execution step anyAction start s → ∀ entry ∈ log s, calls.made s entry.1
  returned : ∀ s, Execution step anyAction start s → ∀ i x, calls.returned s i x → (i, x) ∈ log s
  /-- A call decides what to do after it has been made and before it adds itself. -/
  decides : ∀ s₁ s, Execution step anyAction start s₁ → Execution step anyAction s₁ s →
    ∀ entry ∈ log s, ¬calls.made s₁ entry.1 → ∃ s₂, Execution step anyAction s₁ s₂ ∧
      Execution step anyAction s₂ s ∧ calls.made s₂ entry.1 ∧ entry ∉ log s₂ ∧
      ∀ t, shows s₂ t → saw t entry.2

namespace CommitLog

variable {step : σ → α → Option σ} {start s s' : σ} {calls : Calls σ ι ω} {spec : τ → ω → τ → Prop}
  {saw : τ → ω → Prop} {init : τ} {shows : σ → τ → Prop} {log : σ → List (ι × ω)}

/-- The log is a sequential run. -/
theorem legal (h : CommitLog step start calls spec saw init shows log)
    (run : Execution step anyAction start s) :
    ∃ t, Sequential spec init ((log s).map Prod.snd) t ∧ shows s t := by
  refine run.invariant (I := fun s => ∃ t, Sequential spec init ((log s).map Prod.snd) t ∧ shows s t)
    ⟨init, by rw [h.begins.1]; exact .nil, h.begins.2⟩ fun s a s' hrun ih _ hstep => ?_
  obtain ⟨t, hlegal, hshows⟩ := ih
  rcases h.appends s a s' t hrun hstep hshows with ⟨hlog, hshows'⟩ | ⟨entry, t', hlog, hspec, hshows'⟩
  · exact ⟨t, by rw [hlog]; exact hlegal, hshows'⟩
  · refine ⟨t', ?_, hshows'⟩
    rw [hlog, List.map_append, List.map_singleton]
    exact .snoc hlegal hspec

/-- The log only grows. -/
theorem grows (h : CommitLog step start calls spec saw init shows log)
    (run : Execution step anyAction start s) (run' : Execution step anyAction s s') :
    log s <+: log s' := by
  refine run'.invariant (I := fun s' => log s <+: log s') List.prefix_rfl
    fun s₁ a s₂ hrun ih _ hstep => ?_
  obtain ⟨t, -, hshows⟩ := h.legal (run.trans hrun)
  rcases h.appends s₁ a s₂ t (run.trans hrun) hstep hshows with ⟨hlog, -⟩ | ⟨entry, t', hlog, -⟩
  · exact hlog ▸ ih
  · exact hlog ▸ ih.trans (List.prefix_append _ _)

/-- **An object with such a log is linearizable.** -/
theorem linearizable (h : CommitLog step start calls spec saw init shows log) :
    Linearizable step start calls spec saw init shows := by
  intro s run
  refine ⟨log s, h.legal run, h.once s run, h.made s run, h.returned s run, ?_, ?_⟩
  · intro s₁ run₁ rest i x j y hreturned hnew hmem
    -- the log of `s₁` ends between the two
    obtain ⟨later, hlater⟩ := h.grows run₁ rest
    refine ⟨log s₁, later, hlater.symm, h.returned s₁ run₁ i x hreturned, ?_⟩
    rw [← hlater] at hmem
    exact (List.mem_append.mp hmem).resolve_left fun hold => hnew (h.made s₁ run₁ _ hold)
  · intro s₁ run₁ rest entry hmem hnew
    -- what the call saw is what the log of `s₂` leads to
    obtain ⟨s₂, run₂, rest₂, hmade, habsent, hsaw⟩ := h.decides s₁ s run₁ rest entry hmem hnew
    obtain ⟨later, hlater⟩ := h.grows (run₁.trans run₂) rest₂
    obtain ⟨t, hlegal, hshows⟩ := h.legal (run₁.trans run₂)
    rw [← hlater] at hmem
    exact ⟨s₂, log s₂, later, t, run₂, rest₂, hmade, hlater.symm,
      (List.mem_append.mp hmem).resolve_left habsent, hlegal, hshows, hsaw t hshows,
      fun i x hreturned => (h.grows run₁ run₂).subset (h.returned s₁ run₁ i x hreturned)⟩

end CommitLog

end Concurrency
