/-
  The collector lock and the connection pool.

  A connection whose session holds the lock should be with the acquiring call, with a lease, or on
  its way to be closed, and never in the pool.  `try_acquire_lease` marks its connection
  `close_on_drop` when it has read the reply, so a lease never goes back to the pool.  Before that
  the mark is missing: a call that is dropped after PostgreSQL has granted the lock, or whose
  statement is granted after the drop, leaves the lock in the pool.  These two are the only ways.
-/
import Retsu.CollectorLeadership

namespace Retsu

open Concurrency

/-- Idle in a pool, or with another borrower of it. -/
def ConnectionPlace.inPool {π : Type} : ConnectionPlace π → Bool
  | pooled _ | borrowed _ => true
  | absent | worker _ | closing => false

/-- With the worker, or dropped for good. -/
def ConnectionPlace.secured {π : Type} : ConnectionPlace π → Bool
  | worker _ | closing => true
  | absent | pooled _ | borrowed _ => false

theorem ConnectionPlace.secured_without {π : Type} [DecidableEq π] {place : ConnectionPlace π}
    {p : π} (h : place.secured = true) : (place.without p).secured = true := by
  cases place with
  | worker q =>
    simp only [without]
    split <;> rfl
  | closing => rfl
  | absent | pooled q | borrowed q => cases h

theorem ConnectionPlace.without_eq_absent {π : Type} [DecidableEq π] {place : ConnectionPlace π}
    {p : π} (h : place.without p = absent) : place = absent := by
  cases place with
  | absent => rfl
  | closing => cases h
  | pooled q | borrowed q | worker q =>
    simp only [without] at h
    split at h <;> cases h

def Wire.isLockSent : Wire → Bool
  | lockSent => true
  | _ => false

namespace Collectors

variable {π σ : Type}

/-- The worker is not cancelled in an acquiring call whose session holds the lock already, and
    no lock statement is granted after its call was dropped. -/
def sheltered [DecidableEq σ] (s : Collectors π σ) : CollectorAction π σ → Bool
  | .cancel p =>
    match s.phase p with
    | .locking k => s.lock.holder ≠ some k.session
    | _ => true
  | .execute c (.ok ()) =>
    !((s.place c).inPool && (s.wire c).isLockSent && s.lock.holder.isNone)
  | _ => true

variable [DecidableEq π] [DecidableEq σ] {s s' : Collectors π σ} {a : CollectorAction π σ}
  {p : π} {c : σ}

/-- What the lock needs to stay out of the pool. -/
structure Tight (s : Collectors π σ) : Prop where
  secured : ∀ c, s.lock.holder = some c → (s.place c).secured = true
  /-- An attempt that has not been granted is not made on the session that holds the lock. -/
  ungranted : ∀ c, (s.wire c).ungranted = true → s.lock.holder ≠ some c
  unmarked : ∀ p k, s.phase p = .locking k → k.closeOnDrop = false
  absent : ∀ c, s.place c = .absent → s.lock.status c = .unopened

/-- The connection of the holder does not leave the hands that it is in for the pool. -/
theorem Tight.handover (h : s.Tight) (hstep : s.Handover a s') (hsheltered : s.sheltered a = true)
    (hholder : s.lock.holder = some c) : (s'.place c).secured = true := by
  have hsecured := h.secured c hholder
  cases hstep with
  | keeps hplace _ _ => rwa [hplace]
  | takes d place hfree hplace _ =>
    have hne : c ≠ d := by
      rintro rfl
      obtain ⟨q, hfree⟩ | hfree := hfree <;> rw [hfree] at hsecured <;> cases hsecured
    rwa [hplace, Function.update_of_ne hne]
  | leaves p k phase place hhad _ _ hplace hdropped =>
    rw [hplace]
    rcases eq_or_ne c k.session with rfl | hne
    · rw [Function.update_self]
      obtain rfl | ⟨rfl, hunmarked, hcause⟩ := hdropped
      · rfl
      · -- without the mark it goes to the pool
        exfalso
        obtain rfl | hungranted := hcause
        · have hlocking : s.phase p = .locking k := by
            obtain hlocking | ⟨lease, -, rfl⟩ := CollectorPhase.connection_cases hhad
            · exact hlocking
            · rw [lease.marked] at hunmarked
              cases hunmarked
          rw [sheltered, hlocking] at hsheltered
          exact of_decide_eq_true hsheltered hholder
        · exact h.ungranted _ hungranted hholder
    · rwa [Function.update_of_ne hne]
  | returns p d hborrowed hplace _ =>
    have hne : c ≠ d := by
      rintro rfl
      rw [hborrowed] at hsecured
      cases hsecured
    rwa [hplace, Function.update_of_ne hne]
  | crashes p _ hplace =>
    rw [hplace]
    exact ConnectionPlace.secured_without hsecured

/-- A connection that is not opened has not been. -/
theorem Handover.absent (hstep : s.Handover a s') (h : s'.place c = .absent) :
    s.place c = .absent := by
  cases hstep with
  | keeps hplace _ _ => rwa [hplace] at h
  | takes d place _ hplace htaker =>
    rw [hplace] at h
    rcases eq_or_ne c d with rfl | hne
    · rw [Function.update_self] at h
      obtain ⟨⟨q, rfl⟩, -⟩ | ⟨p, rfl, -, -⟩ := htaker <;> cases h
    · rwa [Function.update_of_ne hne] at h
  | leaves p k phase place _ _ _ hplace hdropped =>
    rw [hplace] at h
    rcases eq_or_ne c k.session with rfl | hne
    · rw [Function.update_self] at h
      obtain rfl | ⟨rfl, -⟩ := hdropped <;> cases h
    · rwa [Function.update_of_ne hne] at h
  | returns p d _ hplace _ =>
    rw [hplace] at h
    rcases eq_or_ne c d with rfl | hne
    · rw [Function.update_self] at h
      cases h
    · rwa [Function.update_of_ne hne] at h
  | crashes p _ hplace =>
    rw [hplace] at h
    exact ConnectionPlace.without_eq_absent h

theorem Handover.unmarked {k : PoolConnection σ} (hstep : s.Handover a s')
    (h : ∀ p k, s.phase p = .locking k → k.closeOnDrop = false) (hk : s'.phase p = .locking k) :
    k.closeOnDrop = false := by
  cases hstep with
  | keeps _ _ hlocking => exact h p k (hlocking p k hk)
  | takes d place _ _ htaker =>
    obtain ⟨-, hphase⟩ | ⟨q, -, -, hphase⟩ := htaker
    · rw [hphase] at hk
      exact h p k hk
    · rw [hphase] at hk
      rcases eq_or_ne p q with rfl | hne
      · rw [Function.update_self] at hk
        obtain rfl := CollectorPhase.locking.inj hk
        rfl
      · rw [Function.update_of_ne hne] at hk
        exact h p k hk
  | leaves q k' phase place _ hnone hphase _ _ =>
    rw [hphase] at hk
    rcases eq_or_ne p q with rfl | hne
    · rw [Function.update_self] at hk
      rw [hk] at hnone
      cases hnone
    · rw [Function.update_of_ne hne] at hk
      exact h p k hk
  | returns _ _ _ _ hphase =>
    rw [hphase] at hk
    exact h p k hk
  | crashes q hphase _ =>
    rw [hphase] at hk
    rcases eq_or_ne p q with rfl | hne
    · rw [Function.update_self] at hk
      cases hk
    · rw [Function.update_of_ne hne] at hk
      exact h p k hk

omit [DecidableEq π] in
/-- A session that holds the lock and has not asked for it again is not about to be refused. -/
theorem Tight.wire_step (h : s.Tight) (hwell : s.lock.WellFormed) (hstep : s.WireStep s' c)
    (hholder : s.lock.holder = some c) : (s'.wire c).ungranted = false := by
  have hgranted : (s.wire c).ungranted = false :=
    eq_false_of_ne_true fun hungranted => h.ungranted c hungranted hholder
  cases hstep with
  | stays hwire => rw [hwire, hgranted]
  | idle hwire | readSent _ _ _ _ hwire =>
    rw [hwire]
    rfl
  | lockSent hfree hwire =>
    obtain ⟨q, hpooled⟩ | hunopened := hfree
    · have hsecured := h.secured c hholder
      rw [hpooled] at hsecured
      cases hsecured
    · cases hunopened.symm.trans (hwell c hholder)
  | executed outcome hlive hexecuted =>
    generalize s.wire c = sent at hexecuted hgranted
    generalize s'.wire c = reply at hexecuted ⊢
    generalize s'.lock = lock at hexecuted
    cases hexecuted with
    | lock | lockFails error => cases hgranted
    | readBegins | readEnds _ _ | readFails _ _ => rfl

/-- The lock is granted to a connection that is in the worker's hands, or closing. -/
theorem Tight.asked (h : s.Tight) (hact : s.act (.execute c (.ok ())) = some s')
    (hwire : s.wire c = .lockSent) (hnone : s.lock.holder = none)
    (hsheltered : s.sheltered (.execute c (.ok ())) = true) :
    (s'.place c).secured = true ∧ (s'.wire c).ungranted = false := by
  obtain ⟨hlive, reply, lock, hexecuted, rfl⟩ := execute_cases hact
  rw [hwire] at hexecuted
  cases hexecuted with
  | lock =>
    constructor
    · show (s.place c).secured = true
      rw [sheltered, hwire, hnone] at hsheltered
      cases hplace : s.place c with
      | worker q | closing => rfl
      | absent => cases (h.absent c hplace).symm.trans hlive
      | pooled q | borrowed q =>
        rw [hplace] at hsheltered
        cases hsheltered
    · show (Function.update s.wire c _ c).ungranted = false
      rw [Function.update_self, SessionLock.grants, hnone]
      rfl

omit [DecidableEq π] in
/-- A new holder has been granted the lock by this action. -/
theorem LockStep.holder (hstep : s.LockStep a s') (h : s'.lock.holder = some c) :
    s.lock.holder = some c ∨
      s.lock.holder = none ∧ a = .execute c (.ok ()) ∧ s.wire c = .lockSent := by
  cases hstep with
  | stays hlock =>
    rw [hlock] at h
    exact .inl h
  | opened d _ _ hlock =>
    rw [hlock] at h
    exact .inl h
  | asked d haction hwire _ hlock =>
    rw [hlock] at h
    obtain hheld | ⟨hnone, rfl⟩ := SessionLock.holder_of_tryLock h
    · exact .inl hheld
    · exact .inr ⟨hnone, haction, hwire⟩
  | ended d _ hlock =>
    rw [hlock] at h
    exact .inl (SessionLock.endSession_holder h).1

omit [DecidableEq π] in
/-- A session that has not been opened is opened only with its connection. -/
theorem LockStep.unopened (hstep : s.LockStep a s') (hplace : s'.place c = .absent)
    (h : s.lock.status c = .unopened) : s'.lock.status c = .unopened := by
  cases hstep with
  | stays hlock => rw [hlock, h]
  | opened d _ hopen hlock =>
    have hne : c ≠ d := by
      rintro rfl
      exact hopen hplace
    rw [hlock]
    exact (Function.update_of_ne hne _ _).trans h
  | asked d _ _ _ hlock => rw [hlock, SessionLock.tryLock_status, h]
  | ended d hlive hlock =>
    have hne : c ≠ d := by
      rintro rfl
      cases h.symm.trans hlive
    rw [hlock]
    exact (Function.update_of_ne hne _ _).trans h

/-- **A sheltered step keeps the lock out of the pool.** -/
theorem Tight.step (h : s.Tight) (hsafe : s.Safe) (hstep : s.step a = some s')
    (hsheltered : s.sheltered a = true) : s'.Tight := by
  obtain ⟨s₁, hact, rfl⟩ := Option.map_eq_some_iff.mp hstep
  obtain ⟨hlock, -, hwire, hhandover, -⟩ := act_effect hact
  have hwell : s.lock.WellFormed := by
    have hpresent := hsafe.recorded.lock s.time le_rfl
    rwa [hsafe.recorded.present] at hpresent
  refine ⟨fun c hholder => ?_, fun c hungranted hholder => ?_,
    fun p k hk => hhandover.unmarked h.unmarked hk,
    fun c hplace => hlock.unopened hplace (h.absent c (hhandover.absent hplace))⟩
  · obtain hheld | ⟨hnone, rfl, hsent⟩ := hlock.holder hholder
    · have hsecured : (s₁.place c).secured = true := h.handover hhandover hsheltered hheld
      exact hsecured
    · exact (h.asked hact hsent hnone hsheltered).1
  · obtain hheld | ⟨hnone, rfl, hsent⟩ := hlock.holder hholder
    · exact ne_true_of_eq_false (h.wire_step hwell (hwire c) hheld) hungranted
    · exact ne_true_of_eq_false (h.asked hact hsent hnone hsheltered).2 hungranted

end Collectors

end Retsu
