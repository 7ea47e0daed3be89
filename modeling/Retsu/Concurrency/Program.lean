/-
  Programs that stop at every await.

  A `Program` is what is left of a computation: it is done, or it awaits the answer to a query and
  has a continuation for every answer.  Between two awaits anything may happen in the environment,
  and that the environment gives an answer is a step of the system the program runs in; so a
  program is the state of a thread.  `Goes` is what such steps make of it, and `Conforms` is what a
  program keeps to whatever the answers are: a condition on every query and on every result, given
  what has been answered before.
-/
import Mathlib.Logic.Basic
import Mathlib.Data.Sigma.Basic

namespace Concurrency

/-- What is left of a computation that has queries `q : Q` with answers in `R q`. -/
inductive Program (Q : Type) (R : Q → Type) (α : Type)
  | done (a : α)
  | await (q : Q) (next : R q → Program Q R α)

namespace Program

variable {Q : Type} {R : Q → Type} {α β : Type}

def bind : Program Q R α → (α → Program Q R β) → Program Q R β
  | done a, f => f a
  | await q next, f => await q fun r => (next r).bind f

instance : Monad (Program Q R) where
  pure := done
  bind := bind

/-- One query. -/
def ask (q : Q) : Program Q R (R q) := await q done

@[simp] theorem done_bind (a : α) (f : α → Program Q R β) : bind (done a) f = f a := rfl

@[simp] theorem await_bind (q : Q) (next : R q → Program Q R α) (f : α → Program Q R β) :
    bind (await q next) f = await q fun r => (next r).bind f := rfl

/-! ## What the answers make of a program -/

/-- A query with the answer that was given to it. -/
abbrev Exchange (Q : Type) (R : Q → Type) := (q : Q) × R q

/-- After these exchanges, `p` has become `p'`. -/
inductive Goes : Program Q R α → List (Exchange Q R) → Program Q R α → Prop
  | refl {p : Program Q R α} : Goes p [] p
  | answer {q : Q} {next : R q → Program Q R α} {r : R q} {answered : List (Exchange Q R)}
      {p : Program Q R α} (rest : Goes (next r) answered p) :
      Goes (await q next) (⟨q, r⟩ :: answered) p

variable {p p' : Program Q R α} {answered : List (Exchange Q R)}

/-- One more answer. -/
theorem Goes.snoc {q : Q} {next : R q → Program Q R α} (h : Goes p answered (await q next))
    (r : R q) : Goes p (answered ++ [⟨q, r⟩]) (next r) := by
  generalize hawait : await q next = last at h
  induction h with
  | refl =>
    subst hawait
    exact .answer .refl
  | answer rest ih => exact .answer (ih hawait)

/-! ## What a program keeps to -/

/-- Whatever it is answered after the exchanges `past`, the program asks only what `asks` permits
    and ends only as `ends` permits. -/
def Conforms (asks : List (Exchange Q R) → Q → Prop) (ends : List (Exchange Q R) → α → Prop)
    (past : List (Exchange Q R)) : Program Q R α → Prop
  | done a => ends past a
  | await q next => asks past q ∧ ∀ r, (next r).Conforms asks ends (past ++ [⟨q, r⟩])

section Conforms

variable {asks : List (Exchange Q R) → Q → Prop} {ends : List (Exchange Q R) → α → Prop}
  {past : List (Exchange Q R)}

theorem conforms_await {q : Q} {next : R q → Program Q R α} :
    (await q next).Conforms asks ends past ↔
      asks past q ∧ ∀ r, (next r).Conforms asks ends (past ++ [⟨q, r⟩]) := Iff.rfl

/-- The answers that come do not change what a program keeps to. -/
theorem Goes.conforms (h : Goes p answered p') (hp : p.Conforms asks ends past) :
    p'.Conforms asks ends (past ++ answered) := by
  induction h generalizing past with
  | refl => rwa [List.append_nil]
  | @answer q next r answered p rest ih =>
    have hlast := ih (hp.2 r)
    rwa [List.append_assoc] at hlast

/-- More may be permitted at the end. -/
theorem Conforms.mono {ends' : List (Exchange Q R) → α → Prop} (hp : p.Conforms asks ends past)
    (h : ∀ past a, ends past a → ends' past a) : p.Conforms asks ends' past := by
  induction p generalizing past with
  | done a => exact h past a hp
  | await q next ih =>
    constructor
    · exact hp.1
    · intro r
      exact ih r (hp.2 r)

/-- A program that goes on with what another has ended with. -/
theorem Conforms.bind {f : α → Program Q R β} {ends' : List (Exchange Q R) → β → Prop}
    (hp : p.Conforms asks (fun past a => (f a).Conforms asks ends' past) past) :
    (p.bind f).Conforms asks ends' past := by
  induction p generalizing past with
  | done a => exact hp
  | await q next ih =>
    constructor
    · exact hp.1
    · intro r
      exact ih r (hp.2 r)

end Conforms

/-- What is left of a program after one answer. -/
inductive Answered : Program Q R α → Program Q R α → Prop
  | intro {q : Q} {next : R q → Program Q R α} (r : R q) : Answered (next r) (await q next)

end Program

end Concurrency
