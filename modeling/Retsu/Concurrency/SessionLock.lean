/-
  A lock that belongs to a session: a try-lock that nobody releases but the end of its session.

  A session is opened once and ends once.  A try-lock is granted when nobody holds the lock, or
  when the session itself does.  What a grant is good for afterwards is `Keeps`: unless the
  session has ended, it still holds the lock.  Nothing that happens to any session takes that away.
-/
import Mathlib.Logic.Function.Basic

namespace Concurrency

inductive SessionStatus
  | unopened
  | live
  | ended
deriving DecidableEq

/-- Every session, and the one that holds the lock. -/
structure SessionLock (σ : Type*) where
  status : σ → SessionStatus
  holder : Option σ

namespace SessionLock

variable {σ : Type*}

/-- No session has been opened yet. -/
def initial : SessionLock σ := ⟨fun _ => .unopened, none⟩

variable [DecidableEq σ]

def openSession (l : SessionLock σ) (a : σ) : SessionLock σ :=
  { l with status := Function.update l.status a .live }

/-- The session is granted the lock when it asks for it. -/
def grants (l : SessionLock σ) (a : σ) : Bool := l.holder = none ∨ l.holder = some a

def tryLock (l : SessionLock σ) (a : σ) : SessionLock σ :=
  if l.grants a then { l with holder := some a } else l

/-- The end of a session releases its lock. -/
def endSession (l : SessionLock σ) (a : σ) : SessionLock σ :=
  { status := Function.update l.status a .ended
    holder := if l.holder = some a then none else l.holder }

/-- Only a live session holds the lock. -/
def WellFormed (l : SessionLock σ) : Prop := ∀ a, l.holder = some a → l.status a = .live

/-- The session has been granted the lock: it holds the lock unless it has ended. -/
def Keeps (l : SessionLock σ) (a : σ) : Prop :=
  l.status a ≠ .unopened ∧ (l.status a = .live → l.holder = some a)

/-- What can happen to the sessions and the lock. -/
inductive Step (l : SessionLock σ) : SessionLock σ → Prop
  | stays : Step l l
  | opened {a : σ} (h : l.status a = .unopened) : Step l (l.openSession a)
  | tried {a : σ} (h : l.status a = .live) : Step l (l.tryLock a)
  | ended {a : σ} (h : l.status a = .live) : Step l (l.endSession a)

variable {l l' : SessionLock σ} {a b : σ}

@[simp] theorem openSession_holder : (l.openSession a).holder = l.holder := rfl

@[simp] theorem tryLock_status : (l.tryLock a).status = l.status := by
  unfold tryLock
  split <;> rfl

theorem tryLock_holder_of_grants (h : l.grants a = true) : (l.tryLock a).holder = some a := by
  rw [tryLock, if_pos h]

/-- The lock of a session changes hands only by its end. -/
theorem tryLock_holder_of_holder (h : l.holder = some b) : (l.tryLock a).holder = some b := by
  unfold tryLock
  split
  · rename_i hgrants
    rw [grants, h] at hgrants
    simpa [eq_comm] using hgrants
  · exact h

/-- Whoever holds the lock after an attempt held it before, or has been granted it. -/
theorem holder_of_tryLock (h : (l.tryLock a).holder = some b) :
    l.holder = some b ∨ l.holder = none ∧ b = a := by
  cases hholder : l.holder with
  | none =>
    rw [tryLock_holder_of_grants (by simp [grants, hholder])] at h
    exact .inr ⟨rfl, (Option.some.inj h).symm⟩
  | some c =>
    rw [tryLock_holder_of_holder hholder] at h
    exact .inl h

theorem endSession_holder (h : (l.endSession a).holder = some b) : l.holder = some b ∧ b ≠ a := by
  unfold endSession at h
  dsimp only at h
  split at h
  · cases h
  · rename_i hne
    exact ⟨h, fun hba => hne (hba ▸ h)⟩

/-! ## Steps -/

omit [DecidableEq σ] in
theorem wellFormed_initial : (initial : SessionLock σ).WellFormed := fun _ h => nomatch h

/-- A session that has ended stays ended. -/
theorem Step.status_ended (hstep : Step l l') (h : l.status b = .ended) :
    l'.status b = .ended := by
  cases hstep with
  | stays => exact h
  | @opened a hopen =>
    have hne : b ≠ a := by
      rintro rfl
      rw [hopen] at h
      cases h
    show Function.update l.status a .live b = .ended
    rw [Function.update_of_ne hne, h]
  | @tried a hlive => rw [tryLock_status, h]
  | @ended a hlive =>
    show Function.update l.status a .ended b = .ended
    rcases eq_or_ne b a with rfl | hne
    · rw [Function.update_self]
    · rw [Function.update_of_ne hne, h]

theorem Step.wellFormed (hstep : Step l l') (h : l.WellFormed) : l'.WellFormed := by
  intro b hholder
  cases hstep with
  | stays => exact h b hholder
  | @opened a hopen =>
    have hlive : l.status b = .live := h b hholder
    have hne : b ≠ a := by
      rintro rfl
      rw [hopen] at hlive
      cases hlive
    show Function.update l.status a .live b = .live
    rw [Function.update_of_ne hne, hlive]
  | @tried a hlive =>
    rw [tryLock_status]
    rcases holder_of_tryLock hholder with hheld | ⟨-, rfl⟩
    · exact h b hheld
    · exact hlive
  | @ended a hlive =>
    obtain ⟨hheld, hne⟩ := endSession_holder hholder
    show Function.update l.status a .ended b = .live
    rw [Function.update_of_ne hne, h b hheld]

/-- **A grant is kept.**  Only the end of the session ends it. -/
theorem Step.keeps (hstep : Step l l') (h : l.Keeps b) : l'.Keeps b := by
  obtain ⟨hopened, hheld⟩ := h
  cases hstep with
  | stays => exact ⟨hopened, hheld⟩
  | @opened a hopen =>
    have hne : b ≠ a := by
      rintro rfl
      exact hopened hopen
    have hstatus : (l.openSession a).status b = l.status b := Function.update_of_ne hne _ _
    rw [Keeps, hstatus]
    exact ⟨hopened, hheld⟩
  | @tried a hlive =>
    rw [Keeps, tryLock_status]
    exact ⟨hopened, fun hb => tryLock_holder_of_holder (hheld hb)⟩
  | @ended a hlive =>
    rcases eq_or_ne b a with rfl | hne
    · have hstatus : (l.endSession b).status b = .ended := Function.update_self ..
      rw [Keeps, hstatus]
      exact ⟨nofun, nofun⟩
    · have hstatus : (l.endSession a).status b = l.status b := Function.update_of_ne hne _ _
      rw [Keeps, hstatus]
      refine ⟨hopened, fun hb => ?_⟩
      have hother : ¬l.holder = some a := fun ha =>
        hne (Option.some.inj ((hheld hb).symm.trans ha))
      show (if l.holder = some a then none else l.holder) = some b
      rw [if_neg hother, hheld hb]

/-- The grant itself. -/
theorem keeps_tryLock (hlive : l.status a = .live) (h : l.grants a = true) :
    (l.tryLock a).Keeps a := by
  rw [Keeps, tryLock_status, hlive]
  exact ⟨nofun, fun _ => tryLock_holder_of_grants h⟩

omit [DecidableEq σ] in
/-- Of the sessions that were granted the lock, one at most is live. -/
theorem Keeps.unique (ha : l.Keeps a) (hb : l.Keeps b) (hlive : l.status a = .live)
    (hlive' : l.status b = .live) : a = b :=
  Option.some.inj ((ha.2 hlive).symm.trans (hb.2 hlive'))

end SessionLock

end Concurrency
