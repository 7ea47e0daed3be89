/-
  Deleting in batches: `ORDER BY … LIMIT n`, again and again until a batch is not full.

  A statement that deletes the first `n` of the eligible rows removes exactly these
  (`RemovesFirst`).  A job that takes the first `size` of the items that are pending, and counts
  them, may be run in a loop that trusts the counts: when it stops, with the first count that is
  not `size`, it has taken every item once, in one turn more than there are full batches.
-/
import Retsu.Relational.OrderBy
import Retsu.Relational.Table

namespace Relational

/-! ## One batch -/

section Batch

variable {α κ ι : Type*} [LinearOrder κ] [DecidableEq ι] {key : α → ι} {order : α → κ}
  {eligible : α → Bool} {rows : List α}

/-- Of the rows, the first `limit` eligible ones have been removed, and nothing else. -/
structure RemovesFirst (order : α → κ) (eligible : α → Bool) (limit : Nat)
    (rows rows' removed : List α) : Prop where
  split : rows.Perm (removed ++ rows')
  kept : rows'.Sublist rows
  qualified : ∀ a ∈ removed, eligible a = true
  length : removed.length = min (rows.countP eligible) limit
  first : ∀ a ∈ removed, ∀ b ∈ rows', eligible b = true → order a < order b

/-- When the limit was not reached, nothing eligible is left. -/
theorem RemovesFirst.drained {limit : Nat} {rows' removed : List α}
    (h : RemovesFirst order eligible limit rows rows' removed) (hcount : removed.length ≠ limit) :
    ∀ a ∈ rows', eligible a = false := by
  have hlength := h.length
  have hcountP : rows.countP eligible = removed.countP eligible + rows'.countP eligible := by
    rw [h.split.countP_eq, List.countP_append]
  rw [List.countP_eq_length.mpr h.qualified] at hcountP
  have hzero : rows'.countP eligible = 0 := by omega
  intro a ha
  simpa using List.countP_eq_zero.mp hzero a ha

/-- The keys that a deletion selects. -/
def firstKeys (key : α → ι) (order : α → κ) (eligible : α → Bool) (limit : Nat) (rows : List α) :
    List ι :=
  ((orderBy order (rows.filter eligible)).take limit).map key

theorem length_eligible : (orderBy order (rows.filter eligible)).length = rows.countP eligible := by
  rw [length_orderBy, List.countP_eq_length_filter]

/-- The rows with the selected keys are the selected rows. -/
theorem filter_firstKeys_perm (hkey : (rows.map key).Nodup) (order : α → κ) (eligible : α → Bool)
    (limit : Nat) :
    (rows.filter fun a => key a ∈ firstKeys key order eligible limit rows).Perm
      ((orderBy order (rows.filter eligible)).take limit) := by
  apply filter_mem_keys_perm hkey
  · intro a ha
    exact (List.mem_filter.mp (mem_of_mem_take_orderBy ha)).1
  · apply List.Nodup.sublist (List.take_sublist _ _)
    exact (orderBy_perm _ _).nodup_iff.mpr ((List.Nodup.of_map key hkey).filter _)

/-- What is eligible after the deletion, in order, is what was not selected. -/
theorem orderBy_delete (hkey : (rows.map key).Nodup)
    (hinj : ∀ a ∈ rows, ∀ b ∈ rows, order a = order b → a = b) (eligible : α → Bool)
    (limit : Nat) :
    orderBy order
        ((rows.filter fun a => key a ∉ firstKeys key order eligible limit rows).filter eligible) =
      (orderBy order (rows.filter eligible)).drop limit := by
  have hperm := orderBy_perm order (rows.filter eligible)
  have hnodup : (orderBy order (rows.filter eligible)).Nodup :=
    hperm.nodup_iff.mpr ((List.Nodup.of_map key hkey).filter _)
  have hsub : ∀ a ∈ orderBy order (rows.filter eligible), a ∈ rows := fun a ha =>
    (List.mem_filter.mp (mem_orderBy.mp ha)).1
  apply orderBy_eq
  · -- a selected row is not among the others, since no row is there twice
    have hnodup' := hnodup
    rw [← List.take_append_drop limit (orderBy order (rows.filter eligible)),
      List.nodup_append] at hnodup'
    obtain ⟨-, hdrop, hdisjoint⟩ := hnodup'
    refine (List.perm_ext_iff_of_nodup
      (((List.Nodup.of_map key hkey).filter _).filter _) hdrop).mpr fun a => ?_
    rw [List.mem_filter, List.mem_filter, decide_eq_true_eq]
    constructor
    · rintro ⟨⟨ha, hnot⟩, heligible⟩
      have hmem : a ∈ orderBy order (rows.filter eligible) :=
        mem_orderBy.mpr (List.mem_filter.mpr ⟨ha, heligible⟩)
      rw [← List.take_append_drop limit (orderBy order (rows.filter eligible))] at hmem
      refine (List.mem_append.mp hmem).resolve_left fun htake => hnot ?_
      exact List.mem_map_of_mem htake
    · intro ha
      have hmem := List.mem_of_mem_drop ha
      refine ⟨⟨hsub a hmem, fun htaken => ?_⟩, (List.mem_filter.mp (mem_orderBy.mp hmem)).2⟩
      obtain ⟨b, hb, hba⟩ := List.mem_map.mp htaken
      have heq := eq_of_key_eq hkey (hsub b (List.mem_of_mem_take hb)) (hsub a hmem) hba
      exact hdisjoint b hb a ha heq
  · exact (orderBy_pairwise order _).sublist (List.drop_sublist _ _)
  · intro a ha b hb
    exact hinj a (List.mem_filter.mp (List.mem_filter.mp ha).1).1 b
      (List.mem_filter.mp (List.mem_filter.mp hb).1).1

/-- **A deletion removes the rows that come first.** -/
theorem removesFirst_delete (hkey : (rows.map key).Nodup)
    (hinj : ∀ a ∈ rows, ∀ b ∈ rows, order a = order b → a = b) (eligible : α → Bool)
    (limit : Nat) :
    RemovesFirst order eligible limit rows
      (rows.filter fun a => key a ∉ firstKeys key order eligible limit rows)
      (rows.filter fun a => key a ∈ firstKeys key order eligible limit rows) := by
  have hperm := filter_firstKeys_perm hkey order eligible limit
  have hsplit := orderBy_delete hkey hinj eligible limit
  refine ⟨?_, List.filter_sublist, ?_, ?_, ?_⟩
  · have h := List.filter_append_perm
      (fun a => decide (key a ∈ firstKeys key order eligible limit rows)) rows
    simpa using h.symm
  · intro a ha
    exact (List.mem_filter.mp (mem_of_mem_take_orderBy (hperm.mem_iff.mp ha))).2
  · rw [hperm.length_eq, List.length_take, length_eligible]
    exact Nat.min_comm _ _
  · intro a ha b hb heligible
    have hstrict : (orderBy order (rows.filter eligible)).Pairwise fun a b => order a < order b := by
      apply orderBy_strict
      refine List.Nodup.map_on ?_ ((List.Nodup.of_map key hkey).filter _)
      intro a ha b hb
      exact hinj a (List.mem_filter.mp ha).1 b (List.mem_filter.mp hb).1
    rw [← List.take_append_drop limit (orderBy order (rows.filter eligible)),
      List.pairwise_append] at hstrict
    refine hstrict.2.2 a (hperm.mem_iff.mp ha) b ?_
    rw [← hsplit]
    exact mem_orderBy.mpr (List.mem_filter.mpr ⟨hb, heligible⟩)

end Batch

/-! ## Loops -/

variable {σ α : Type*}

/-- One turn: the states before and after it, and the count, unless the job has failed. -/
structure Turn (σ : Type*) where
  before : σ
  count : Option Nat
  after : σ

def Turn.of (job : σ → σ × Option Nat) (s : σ) : Turn σ := ⟨s, (job s).2, (job s).1⟩

/-- The turns of the loop, up to the first whose count is not `size`; `none` if `fuel` turns do
    not suffice. -/
def turns (job : σ → σ × Option Nat) (size : Nat) : Nat → σ → Option (List (Turn σ))
  | 0, _ => none
  | fuel + 1, s =>
    let turn := Turn.of job s
    if turn.count = some size then (turns job size fuel turn.after).map (turn :: ·)
    else some [turn]

/-- In the states of the invariant, the job takes the first `size` pending items. -/
structure TakesFirst (job : σ → σ × Option Nat) (size : Nat) (pending : σ → List α)
    (I : σ → Prop) : Prop where
  count : ∀ s, I s → (job s).2 = some ((pending s).take size).length
  pending : ∀ s, I s → pending (job s).1 = (pending s).drop size
  invariant : ∀ s, I s → I (job s).1

variable {job : σ → σ × Option Nat} {size : Nat} {pending : σ → List α} {I : σ → Prop} {s : σ}

/-- A batch that is not full leaves nothing. -/
theorem TakesFirst.drained (h : TakesFirst job size pending I) (hs : I s)
    (hcount : (job s).2 ≠ some size) : pending (job s).1 = [] := by
  rw [h.count s hs, List.length_take] at hcount
  rw [h.pending s hs, List.drop_eq_nil_iff]
  have hnot : min size (pending s).length ≠ size := fun heq => hcount (by rw [heq])
  omega

/-- **The loop takes every item once**, in one turn more than there are full batches. -/
theorem TakesFirst.turns (h : TakesFirst job size pending I) (hsize : 0 < size) (hs : I s)
    {fuel : Nat} (hfuel : (pending s).length / size < fuel) :
    ∃ ts, turns job size fuel s = some ts ∧
      ts.length = (pending s).length / size + 1 ∧
      (∀ t ∈ ts, I t.before ∧ t = .of job t.before) ∧
      (ts.flatMap fun t => (pending t.before).take size) = pending s ∧
      ∃ last ∈ ts.getLast?, I last.after ∧ pending last.after = [] := by
  induction fuel generalizing s with
  | zero => simp at hfuel
  | succ fuel ih =>
    by_cases hfull : size ≤ (pending s).length
    · -- a full batch: one turn, and the turns for the rest
      have hcount : (Turn.of job s).count = some size := by
        show (job s).2 = _
        rw [h.count s hs, List.length_take, Nat.min_eq_left hfull]
      have hdiv := Nat.div_eq_sub_div hsize hfull
      have hrest : (pending (job s).1).length = (pending s).length - size := by
        rw [h.pending s hs, List.length_drop]
      obtain ⟨ts, hts, hlength, hturns, htaken, last, hlast, hend⟩ :=
        ih (h.invariant s hs) (by rw [hrest]; omega)
      refine ⟨.of job s :: ts, ?_, ?_, ?_, ?_, last, ?_, hend⟩
      · rw [Relational.turns]
        show (if (Turn.of job s).count = some size then _ else _) = _
        rw [if_pos hcount, show (Turn.of job s).after = (job s).1 from rfl, hts]
        rfl
      · rw [List.length_cons, hlength, hrest, hdiv]
      · intro t ht
        rcases List.mem_cons.mp ht with rfl | ht
        · exact ⟨hs, rfl⟩
        · exact hturns t ht
      · rw [List.flatMap_cons, htaken, h.pending s hs]
        exact List.take_append_drop size _
      · have hne : ts ≠ [] := by
          rintro rfl
          simp at hlast
        rwa [List.getLast?_cons_of_ne_nil hne]
    · have hcount : (job s).2 ≠ some size := by
        rw [h.count s hs, List.length_take]
        intro heq
        have := Option.some.inj heq
        omega
      have hzero : (pending s).length / size = 0 := Nat.div_eq_of_lt (by omega)
      refine ⟨[.of job s], ?_, by simp [hzero], ?_, ?_, .of job s, rfl, h.invariant s hs,
        h.drained hs hcount⟩
      · rw [Relational.turns]
        show (if (Turn.of job s).count = some size then _ else _) = _
        exact if_neg hcount
      · intro t ht
        obtain rfl := List.mem_singleton.mp ht
        exact ⟨hs, rfl⟩
      · rw [List.flatMap_singleton]
        exact List.take_of_length_le (show (pending s).length ≤ size by omega)

end Relational
