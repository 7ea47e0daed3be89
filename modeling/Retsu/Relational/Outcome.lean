/-
  Fallible computations in `Except`: inversion of sequencing, and guards.

  A successful `x >>= f` gives the two successes it is made of, a failed one the failure of
  one of them; these two lemmas take a computation apart without unfolding the monad.
  `require p e` is the guard that fails with `e` unless `p` holds.
-/
import Mathlib.Data.List.Forall2
import Mathlib.Logic.Basic

namespace Relational

variable {ε : Type*} {α β : Type}

/-- Fails with `e` unless `p` holds. -/
def require (p : Prop) [Decidable p] (e : ε) : Except ε Unit := if p then .ok () else .error e

@[simp] theorem require_eq_ok {p : Prop} [Decidable p] {e : ε} :
    require p e = .ok () ↔ p := by
  unfold require
  split <;> simp_all

theorem require_eq_error {p : Prop} [Decidable p] {e e' : ε} :
    require p e = .error e' ↔ ¬p ∧ e = e' := by
  unfold require
  split <;> simp_all

/-- A sequence succeeds exactly when both of its parts do. -/
theorem bind_eq_ok {x : Except ε α} {f : α → Except ε β} {b : β} :
    (x >>= f) = .ok b ↔ ∃ a, x = .ok a ∧ f a = .ok b := by
  cases x <;> simp [bind, Except.bind]

/-- A sequence fails with the failure of one of its parts. -/
theorem bind_eq_error {x : Except ε α} {f : α → Except ε β} {e : ε} :
    (x >>= f) = .error e ↔ x = .error e ∨ ∃ a, x = .ok a ∧ f a = .error e := by
  cases x <;> simp [bind, Except.bind]

/-- A guard before a computation. -/
theorem guard_eq_ok {x : Except ε Unit} {f : Unit → Except ε β} {b : β} :
    (x >>= f) = .ok b ↔ x = .ok () ∧ f () = .ok b := by
  cases x <;> simp [bind, Except.bind]

/-- A guard before a computation, failing. -/
theorem guard_eq_error {x : Except ε Unit} {f : Unit → Except ε β} {e : ε} :
    (x >>= f) = .error e ↔ x = .error e ∨ (x = .ok () ∧ f () = .error e) := by
  cases x <;> simp [bind, Except.bind]

theorem pure_eq_ok {a b : α} : (pure a : Except ε α) = .ok b ↔ a = b := by
  simp [pure, Except.pure]

/-- Runs `f` on every element, stopping at the first failure. -/
def forEach (f : α → Except ε Unit) : List α → Except ε Unit
  | [] => .ok ()
  | a :: as => f a >>= fun _ => forEach f as

theorem forEach_eq_ok {f : α → Except ε Unit} {as : List α} :
    forEach f as = .ok () ↔ ∀ a ∈ as, f a = .ok () := by
  induction as with
  | nil => simp [forEach]
  | cons a as ih => rw [forEach, guard_eq_ok, List.forall_mem_cons, ih]

theorem forEach_eq_error {f : α → Except ε Unit} {as : List α} {e : ε}
    (h : forEach f as = .error e) : ∃ a ∈ as, f a = .error e := by
  induction as with
  | nil => simp [forEach] at h
  | cons a as ih =>
    rcases guard_eq_error.mp h with ha | ⟨-, hrest⟩
    · exact ⟨a, List.mem_cons_self, ha⟩
    · obtain ⟨b, hb, hfb⟩ := ih hrest
      exact ⟨b, List.mem_cons_of_mem a hb, hfb⟩

/-- A map that succeeds has succeeded on every element. -/
theorem mapM_eq_ok {f : α → Except ε β} {as : List α} {bs : List β} :
    as.mapM f = .ok bs ↔ List.Forall₂ (fun a b => f a = .ok b) as bs := by
  induction as generalizing bs with
  | nil =>
    rw [List.mapM_nil, pure_eq_ok, List.forall₂_nil_left_iff]
    exact eq_comm
  | cons a as ih =>
    simp only [List.mapM_cons, bind_eq_ok, pure_eq_ok, List.forall₂_cons_left_iff, ih]
    constructor
    · rintro ⟨b, hb, bs', hbs, rfl⟩
      exact ⟨b, bs', hb, hbs, rfl⟩
    · rintro ⟨b, bs', hb, hbs, rfl⟩
      exact ⟨b, hb, bs', hbs, rfl⟩

/-- A map succeeds when it can on every element. -/
theorem mapM_ok {f : α → Except ε β} {as : List α} (h : ∀ a ∈ as, ∃ b, f a = .ok b) :
    ∃ bs, as.mapM f = .ok bs := by
  induction as with
  | nil => exact ⟨[], rfl⟩
  | cons a as ih =>
    obtain ⟨b, hb⟩ := h a List.mem_cons_self
    obtain ⟨bs, hbs⟩ := ih fun c hc => h c (List.mem_cons_of_mem a hc)
    refine ⟨b :: bs, ?_⟩
    simp only [List.mapM_cons, bind_eq_ok, pure_eq_ok]
    exact ⟨b, hb, bs, hbs, rfl⟩

/-- A map over an option, when it cannot fail there. -/
theorem option_mapM_ok {f : α → Except ε β} {g : α → β} {o : Option α}
    (h : ∀ a ∈ o, f a = .ok (g a)) : o.mapM f = .ok (o.map g) := by
  cases o with
  | none => rfl
  | some a =>
    show some <$> f a = _
    rw [h a rfl]
    rfl

/-- A relation that determines a column of the result carries the column over. -/
theorem forall₂_map_eq {γ : Type} {r : α → β → Prop} {f : α → γ} {g : β → γ} {as : List α}
    {bs : List β} (h : List.Forall₂ r as bs) (hfg : ∀ a b, r a b → g b = f a) :
    bs.map g = as.map f := by
  induction h with
  | nil => rfl
  | cons hab _ ih => rw [List.map_cons, List.map_cons, hfg _ _ hab, ih]

/-- Every element on the left is related to one on the right. -/
theorem mem_left_of_forall₂ {r : α → β → Prop} {as : List α} {bs : List β}
    (h : List.Forall₂ r as bs) {a : α} (ha : a ∈ as) : ∃ b ∈ bs, r a b := by
  obtain ⟨i, hi, rfl⟩ := List.mem_iff_getElem.mp ha
  have hi' : i < bs.length := h.length_eq ▸ hi
  exact ⟨bs[i], List.getElem_mem hi', List.Forall₂.get h hi hi'⟩

/-- Every element on the right is related to one on the left. -/
theorem mem_right_of_forall₂ {r : α → β → Prop} {as : List α} {bs : List β}
    (h : List.Forall₂ r as bs) {b : β} (hb : b ∈ bs) : ∃ a ∈ as, r a b := by
  obtain ⟨i, hi, rfl⟩ := List.mem_iff_getElem.mp hb
  have hi' : i < as.length := h.length_eq ▸ hi
  exact ⟨as[i], List.getElem_mem hi', List.Forall₂.get h hi' hi⟩

end Relational
