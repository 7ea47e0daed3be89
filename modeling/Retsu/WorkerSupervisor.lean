/-
  The supervisor of the background workers (`worker::serve`).

  It spawns the workers, waits for the shutdown signal or for the first of them to exit, cancels
  the others, and collects their exits until there are none left or the deadline passes; then it
  aborts what remains.  What happens, and in which order, is a list of events that the supervisor
  has no say in; `Serve.run` is what it does with them.
-/
import Mathlib.Data.List.Induction

namespace Retsu

/-! ## Exits -/

/-- An error, as the texts of its chain, outermost first. -/
abbrev ErrorChain := List String

structure WorkerExit where
  name : String
  result : Except ErrorChain Unit

/-- A task that has panicked, with the text of the error. -/
structure JoinError where
  text : String

/-- `with_context`. -/
def withContext {α : Type} (context : String) : Except ErrorChain α → Except ErrorChain α
  | .ok a => .ok a
  | .error error => .error (context :: error)

/-- What the first exit makes of `serve`; `none` is a set without tasks. -/
def unexpectedWorkerExit (workerResult : Option (Except JoinError WorkerExit)) :
    Except ErrorChain Unit := do
  let joined ← match workerResult with
    | some joined => .ok joined
    | none => .error ["worker task set became empty unexpectedly"]
  let workerExit ← match joined with
    | .ok workerExit => .ok workerExit
    | .error error => .error ["background worker task panicked", error.text]
  let name := workerExit.name
  withContext s!"background worker `{name}` failed" workerExit.result
  .error [s!"background worker `{name}` exited unexpectedly"]

/-- One turn of `drain`: the first error is kept. -/
def drainNext (firstError : Option ErrorChain) : Except JoinError WorkerExit → Option ErrorChain
  | .ok ⟨_, .ok ()⟩ => firstError
  | .ok ⟨name, .error error⟩ =>
    firstError.or (some (s!"background worker `{name}` failed during shutdown" :: error))
  | .error error =>
    firstError.or (some ["background worker task panicked during shutdown", error.text])

/-- What `drain` returns when the set is empty. -/
def drainResult : Option ErrorChain → Except ErrorChain Unit
  | some error => .error error
  | none => .ok ()

/-! ## The supervisor -/

inductive ServePhase
  /-- No worker is registered: only the signal is awaited. -/
  | unregistered
  /-- The `select!` of the signal and the first exit. -/
  | running
  /-- `drain`, under the timeout; `result` is what the `select!` gave. -/
  | draining (result : Except ErrorChain Unit) (firstError : Option ErrorChain)
  /-- `tasks.shutdown()`. -/
  | aborting (result : Except ErrorChain Unit)
  | returned (result : Except ErrorChain Unit)

structure Serve where
  /-- The workers whose tasks are in the set. -/
  tasks : List String
  phase : ServePhase

inductive ServeEvent
  /-- `shutdown::signal` ends, with the text of its error. -/
  | signal (result : Except String Unit)
  /-- `join_next` gives the exit of the task at the index: a panic, or what the worker returned. -/
  | joined (index : Nat) (result : Except JoinError (Except ErrorChain Unit))
  /-- `join_next` finds no task. -/
  | emptied
  /-- `shutdown_timeout` has passed. -/
  | deadline
  /-- The remaining tasks have been aborted. -/
  | aborted

namespace Serve

def start (registrations : List String) : Serve where
  tasks := registrations
  phase := if registrations = [] then .unregistered else .running

/-- `join_next`: the exit of the task at the index, which leaves the set. -/
def joinNext (s : Serve) (index : Nat) (result : Except JoinError (Except ErrorChain Unit)) :
    Option (List String × Except JoinError WorkerExit) :=
  s.tasks[index]?.map fun name =>
    (s.tasks.eraseIdx index, result.map fun result => { name, result })

def step (s : Serve) (event : ServeEvent) : Option Serve :=
  match s.phase, event with
  | .unregistered, .signal result =>
    some { s with phase := .returned (result.mapError fun text => [text]) }
  | .running, .signal result =>
    some { s with phase := .draining (result.mapError fun text => [text]) none }
  | .running, .joined index result =>
    (s.joinNext index result).map fun (tasks, workerResult) =>
      { tasks, phase := .draining (unexpectedWorkerExit (some workerResult)) none }
  | .running, .emptied =>
    if s.tasks = [] then some { s with phase := .draining (unexpectedWorkerExit none) none }
    else none
  | .draining result firstError, .joined index exit =>
    (s.joinNext index exit).map fun (tasks, workerResult) =>
      { tasks, phase := .draining result (drainNext firstError workerResult) }
  | .draining result firstError, .emptied =>
    if s.tasks = [] then
      some { s with phase := .returned (result.bind fun _ => drainResult firstError) }
    else none
  | .draining result _, .deadline => some { s with phase := .aborting result }
  | .aborting result, .aborted =>
    some { tasks := [], phase := .returned (result.bind fun _ => .ok ()) }
  | _, _ => none

/-- The events, one after the other. -/
def run (s : Serve) (events : List ServeEvent) : Option Serve := events.foldlM step s

end Serve

/-! ## What the supervisor has seen -/

/-- `join_next` has given a failure: an error or a panic. -/
def ServeEvent.failed : ServeEvent → Bool
  | joined _ (.ok (.ok ())) => false
  | joined _ _ => true
  | signal _ | emptied | deadline | aborted => false

/-- The shutdown began with the signal. -/
def SignalFirst (events : List ServeEvent) : Prop := events.head? = some (.signal (.ok ()))

/-- No exit that was received is a failure. -/
def AllClean (events : List ServeEvent) : Prop := ∀ e ∈ events, e.failed = false

/-- The shutdown began with the signal, a failure was received, and then the deadline passed. -/
def CutOff (events : List ServeEvent) : Prop :=
  SignalFirst events ∧ .deadline ∈ events ∧ ¬AllClean events

/-- Whoever exits first ends `serve` with an error. -/
theorem unexpectedWorkerExit_error (workerResult : Option (Except JoinError WorkerExit)) :
    unexpectedWorkerExit workerResult ≠ .ok () := by
  intro hok
  match workerResult with
  | none | some (.error _) | some (.ok ⟨_, .ok ()⟩) | some (.ok ⟨_, .error _⟩) => cases hok

/-- There is no first error as long as every exit is clean. -/
theorem drainNext_eq_none {firstError : Option ErrorChain} {name : String} {index : Nat}
    {result : Except JoinError (Except ErrorChain Unit)} :
    drainNext firstError (result.map fun result => { name, result }) = none ↔
      firstError = none ∧ (ServeEvent.joined index result).failed = false := by
  match result with
  | .ok (.ok ()) => simp [drainNext, Except.map, ServeEvent.failed]
  | .ok (.error _) | .error _ => simp [drainNext, Except.map, ServeEvent.failed]

theorem drainResult_eq_ok {firstError : Option ErrorChain} :
    drainResult firstError = .ok () ↔ firstError = none := by
  cases firstError <;> simp [drainResult]

section Events

variable {events : List ServeEvent} {e : ServeEvent}

theorem signalFirst_concat (h : events ≠ []) :
    SignalFirst (events ++ [e]) ↔ SignalFirst events := by
  obtain ⟨first, rest, rfl⟩ := List.exists_cons_of_ne_nil h
  exact Iff.rfl

theorem allClean_concat : AllClean (events ++ [e]) ↔ AllClean events ∧ e.failed = false := by
  simp [AllClean, or_imp, forall_and]

end Events

/-! ## Runs -/

namespace Serve

variable {s s' : Serve} {events : List ServeEvent} {e : ServeEvent} {registrations : List String}

/-- The state is what the events have led to. -/
def Explained (s : Serve) (events : List ServeEvent) : Prop :=
  match s.phase with
  | .unregistered => False
  | .running => events = []
  | .draining result firstError => events ≠ [] ∧ (result = .ok () ↔ SignalFirst events) ∧
      .deadline ∉ events ∧ (SignalFirst events → (firstError = none ↔ AllClean events))
  | .aborting result => events ≠ [] ∧ (result = .ok () ↔ SignalFirst events) ∧ .deadline ∈ events
  | .returned result => s.tasks = [] ∧
      (result = .ok () ↔ SignalFirst events ∧ (.deadline ∈ events ∨ AllClean events))

theorem mapError_eq_ok {result : Except String Unit} :
    (result.mapError fun text => [text]) = .ok () ↔ result = .ok () := by
  cases result <;> simp [Except.mapError]

theorem bind_eq_ok {result : Except ErrorChain Unit} {next : Except ErrorChain Unit} :
    (result.bind fun _ => next) = .ok () ↔ result = .ok () ∧ next = .ok () := by
  cases result <;> simp [Except.bind]

/-- **One event.** -/
theorem Explained.step (h : s.Explained events) (hstep : s.step e = some s') :
    s'.Explained (events ++ [e]) := by
  unfold Serve.step at hstep
  unfold Explained at h
  split at hstep
  · rename_i hphase
    rw [hphase] at h
    exact h.elim
  · -- the signal comes first
    rename_i result hphase
    rw [hphase] at h
    obtain rfl := h
    obtain rfl := Option.some.inj hstep
    refine ⟨by simp, ?_, by simp, fun _ => ?_⟩
    · rw [mapError_eq_ok]
      simp [SignalFirst]
    · simp [AllClean, ServeEvent.failed]
  · -- an exit comes first
    rename_i index result hphase
    rw [hphase] at h
    obtain rfl := h
    obtain ⟨⟨tasks, workerResult⟩, hnext, rfl⟩ := Option.map_eq_some_iff.mp hstep
    have hnot : ¬SignalFirst ([] ++ [ServeEvent.joined index result]) := by simp [SignalFirst]
    refine ⟨by simp, ?_, by simp, fun hfirst => absurd hfirst hnot⟩
    exact iff_of_false (unexpectedWorkerExit_error _) hnot
  · rename_i hphase
    rw [hphase] at h
    obtain rfl := h
    obtain ⟨hempty, hstep⟩ := Option.ite_none_right_eq_some.mp hstep
    obtain rfl := Option.some.inj hstep
    have hnot : ¬SignalFirst ([] ++ [ServeEvent.emptied]) := by simp [SignalFirst]
    refine ⟨by simp, ?_, by simp, fun hfirst => absurd hfirst hnot⟩
    exact iff_of_false (unexpectedWorkerExit_error _) hnot
  · -- one more exit
    rename_i result firstError index exit hphase
    rw [hphase] at h
    obtain ⟨hne, hresult, hdeadline, herror⟩ := h
    obtain ⟨⟨tasks, workerResult⟩, hnext, rfl⟩ := Option.map_eq_some_iff.mp hstep
    obtain ⟨name, hname, hpair⟩ := Option.map_eq_some_iff.mp hnext
    obtain ⟨-, rfl⟩ := Prod.mk.inj hpair
    refine ⟨by simp, ?_, by simp [hdeadline], fun hfirst => ?_⟩
    · rw [signalFirst_concat hne]
      exact hresult
    · rw [signalFirst_concat hne] at hfirst
      rw [drainNext_eq_none, allClean_concat, herror hfirst]
  · -- the set is empty
    rename_i result firstError hphase
    rw [hphase] at h
    obtain ⟨hne, hresult, hdeadline, herror⟩ := h
    obtain ⟨hempty, hstep⟩ := Option.ite_none_right_eq_some.mp hstep
    obtain rfl := Option.some.inj hstep
    refine ⟨hempty, ?_⟩
    have hstill : .deadline ∉ events ++ [ServeEvent.emptied] := by simp [hdeadline]
    rw [bind_eq_ok, drainResult_eq_ok, signalFirst_concat hne, allClean_concat, hresult]
    constructor
    · rintro ⟨hfirst, hnone⟩
      exact ⟨hfirst, Or.inr ⟨(herror hfirst).mp hnone, rfl⟩⟩
    · rintro ⟨hfirst, hcut | ⟨hclean, -⟩⟩
      · exact absurd hcut hstill
      · exact ⟨hfirst, (herror hfirst).mpr hclean⟩
  · -- the deadline: what `drain` has found is dropped
    rename_i result firstError hphase
    rw [hphase] at h
    obtain ⟨hne, hresult, -, -⟩ := h
    obtain rfl := Option.some.inj hstep
    refine ⟨by simp, ?_, by simp⟩
    rw [signalFirst_concat hne]
    exact hresult
  · rename_i result hphase
    rw [hphase] at h
    obtain ⟨hne, hresult, hdeadline⟩ := h
    obtain rfl := Option.some.inj hstep
    refine ⟨rfl, ?_⟩
    rw [bind_eq_ok, signalFirst_concat hne, hresult]
    constructor
    · rintro ⟨hfirst, -⟩
      exact ⟨hfirst, Or.inl (List.mem_append_left _ hdeadline)⟩
    · rintro ⟨hfirst, -⟩
      exact ⟨hfirst, rfl⟩
  · simp at hstep

theorem run_concat : s.run (events ++ [e]) = (s.run events).bind fun s => s.step e := by
  rw [run, List.foldlM_append]
  simp [run]

/-- **All events.** -/
theorem Explained.run (hregistered : registrations ≠ [])
    (hrun : (start registrations).run events = some s) : s.Explained events := by
  induction events using List.reverseRecOn generalizing s with
  | nil =>
    obtain rfl := Option.some.inj hrun
    simp [Explained, start, hregistered]
  | append_singleton events e ih =>
    rw [run_concat] at hrun
    obtain ⟨t, ht, hstep⟩ := Option.bind_eq_some_iff.mp hrun
    exact (ih ht).step hstep

/-- Once something has happened `serve` can return, whatever the workers do. -/
theorem Explained.returns (h : s.Explained events) (hne : events ≠ []) :
    ∃ more s' result, s.run more = some s' ∧ s'.phase = .returned result := by
  obtain ⟨tasks, phase⟩ := s
  cases phase with
  | unregistered => exact h.elim
  | running => exact absurd h hne
  | draining result firstError => exact ⟨[.deadline, .aborted], _, _, rfl, rfl⟩
  | aborting result => exact ⟨[.aborted], _, _, rfl, rfl⟩
  | returned result => exact ⟨[], _, _, rfl, rfl⟩

end Serve

/-- What `serve` owes its caller: a failure that it has received is an error that it returns, it
    returns without one only after the signal and clean exits, and it leaves no task behind. -/
structure Reports (events : List ServeEvent) (result : Except ErrorChain Unit)
    (tasks : List String) : Prop where
  failed : (∃ e ∈ events, e.failed = true) → result ≠ .ok ()
  succeeded : result = .ok () → SignalFirst events ∧ AllClean events
  tasks : tasks = []

/-- **Every failure is reported, unless the deadline cuts the drain off.**  And once a failure has
    been received, `serve` does return. -/
theorem serve_reports (registrations : List String) (hregistered : registrations ≠ [])
    (events : List ServeEvent) (s : Serve)
    (hrun : (Serve.start registrations).run events = some s) :
    (∀ result, s.phase = .returned result → (Reports events result s.tasks ↔ ¬CutOff events)) ∧
    ((∃ e ∈ events, e.failed = true) →
      ∃ more s' result, s.run more = some s' ∧ s'.phase = .returned result) := by
  have hexplained := Serve.Explained.run hregistered hrun
  constructor
  · intro result hreturned
    have h := hexplained
    unfold Serve.Explained at h
    rw [hreturned] at h
    obtain ⟨htasks, hresult⟩ := h
    constructor
    · rintro hreports ⟨hfirst, hdeadline, hunclean⟩
      exact hunclean (hreports.succeeded (hresult.mpr ⟨hfirst, Or.inl hdeadline⟩)).2
    · intro hcut
      have hclean : result = .ok () → SignalFirst events ∧ AllClean events := by
        intro hok
        obtain ⟨hfirst, hdeadline | hclean⟩ := hresult.mp hok
        · by_contra hunclean
          exact hcut ⟨hfirst, hdeadline, fun hclean => hunclean ⟨hfirst, hclean⟩⟩
        · exact ⟨hfirst, hclean⟩
      refine ⟨fun ⟨e, he, hfailed⟩ hok => ?_, hclean, htasks⟩
      have hnot := (hclean hok).2 e he
      rw [hfailed] at hnot
      simp at hnot
  · rintro ⟨e, he, -⟩
    exact hexplained.returns (List.ne_nil_of_mem he)

/-- A worker fails while the set is drained, another one hangs: `serve` returns `Ok`. -/
theorem serve_reports_cutOff :
    ∃ s, (Serve.start ["scheduler", "cleanup"]).run
        [.signal (.ok ()), .joined 0 (.ok (.error ["shutdown failed"])), .deadline, .aborted] =
          some s ∧
      s.phase = .returned (.ok ()) ∧
      ¬Reports [.signal (.ok ()), .joined 0 (.ok (.error ["shutdown failed"])), .deadline, .aborted]
        (.ok ()) s.tasks := by
  refine ⟨_, rfl, rfl, fun hreports => ?_⟩
  exact hreports.failed ⟨_, List.mem_cons_of_mem _ List.mem_cons_self, rfl⟩ rfl

/-- Without the worker that hangs the failure is returned, with the worker's name. -/
theorem serve_reports_drained :
    ∃ s, (Serve.start ["scheduler", "cleanup"]).run
        [.signal (.ok ()), .joined 0 (.ok (.error ["shutdown failed"])), .joined 0 (.ok (.ok ())),
          .emptied] = some s ∧
      s.phase = .returned
        (.error ["background worker `scheduler` failed during shutdown", "shutdown failed"]) ∧
      Reports [.signal (.ok ()), .joined 0 (.ok (.error ["shutdown failed"])),
        .joined 0 (.ok (.ok ())), .emptied]
        (.error ["background worker `scheduler` failed during shutdown", "shutdown failed"])
        s.tasks := by
  refine ⟨_, rfl, rfl, ?_⟩
  refine ((serve_reports ["scheduler", "cleanup"] (by simp) _ _ rfl).1 _ rfl).mpr ?_
  rintro ⟨-, hdeadline, -⟩
  simp at hdeadline

end Retsu
