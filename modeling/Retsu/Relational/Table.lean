/-
  Tables with a unique column, and one data-modifying statement on them.

  A table is a list of rows; `(rows.map key).Nodup` says that `key` is a unique column.  A
  statement gives every row of the table one fate (`RowChange`) and appends new rows, so a
  statement with several data-modifying parts is one map from rows to fates: no row is
  touched twice.  What a statement-level trigger sees are `deletedRows` and the old and new
  halves of `updatedRows`; `countP_applyChanges` balances them against the table.
-/
import Mathlib.Data.List.Nodup
import Mathlib.Data.List.Count

namespace Relational

variable {α κ : Type*}

/-! ## Unique columns -/

section Unique

variable {key : α → κ} {rows : List α}

/-- A unique column identifies the row. -/
theorem eq_of_key_eq (h : (rows.map key).Nodup) {a b : α} (ha : a ∈ rows) (hb : b ∈ rows)
    (hk : key a = key b) : a = b :=
  List.inj_on_of_nodup_map h ha hb hk

/-- What holds of rows holds of the row that has the unique column of one of them. -/
theorem of_key_mem (h : (rows.map key).Nodup) {P : α → Prop} {some : List α}
    (hsome : ∀ a ∈ some, a ∈ rows ∧ P a) {a : α} (ha : a ∈ rows) (hk : key a ∈ some.map key) :
    P a := by
  obtain ⟨b, hb, hkb⟩ := List.mem_map.mp hk
  obtain ⟨hmem, hP⟩ := hsome b hb
  exact eq_of_key_eq h hmem ha hkb ▸ hP

theorem of_key_eq_some (h : (rows.map key).Nodup) {P : α → Prop} {one : Option α}
    (hone : ∀ a ∈ one, a ∈ rows ∧ P a) {a : α} (ha : a ∈ rows) (hk : one.map key = some (key a)) :
    P a := by
  obtain ⟨b, hb, hkb⟩ := Option.map_eq_some_iff.mp hk
  obtain ⟨hmem, hP⟩ := hone b hb
  exact eq_of_key_eq h hmem ha hkb ▸ hP

variable [DecidableEq κ]

/-- Looking a unique column up finds exactly the row that has it. -/
theorem find?_key_eq_some (h : (rows.map key).Nodup) {k : κ} {a : α} :
    rows.find? (fun r => key r = k) = some a ↔ a ∈ rows ∧ key a = k := by
  constructor
  · intro hf
    exact ⟨List.mem_of_find?_eq_some hf, by simpa using List.find?_some hf⟩
  · rintro ⟨ha, hk⟩
    cases hf : rows.find? (fun r => key r = k) with
    | none => exact absurd (List.find?_eq_none.mp hf a ha) (by simp [hk])
    | some b =>
      have hb := List.mem_of_find?_eq_some hf
      have hkb : key b = k := by simpa using List.find?_some hf
      rw [eq_of_key_eq h hb ha (hkb.trans hk.symm)]

theorem find?_key_eq_none {k : κ} :
    rows.find? (fun r => key r = k) = none ↔ ∀ a ∈ rows, key a ≠ k := by
  simp [List.find?_eq_none]

/-- Filtering on a unique column finds the one row that has it. -/
theorem filter_key_eq (h : (rows.map key).Nodup) {a : α} (ha : a ∈ rows) :
    rows.filter (fun r => key r = key a) = [a] := by
  obtain ⟨before, after, rfl⟩ := List.append_of_mem ha
  have hnd := h
  rw [List.map_append, List.map_cons, List.nodup_middle, List.nodup_cons] at hnd
  have hne : ∀ r ∈ before ++ after, key r ≠ key a := fun r hr hk =>
    hnd.1 (by rw [← List.map_append]; exact List.mem_map.mpr ⟨r, hr, hk⟩)
  rw [List.filter_append, List.filter_cons_of_pos (by simp),
    List.filter_eq_nil_iff.mpr (by simpa using fun r hr => hne r (List.mem_append_left _ hr)),
    List.filter_eq_nil_iff.mpr (by simpa using fun r hr => hne r (List.mem_append_right _ hr)),
    List.nil_append]

/-- Of what the rows yield, labelled with the unique column, one row's label selects its own. -/
theorem filter_flatMap_key {β : Type*} (h : (rows.map key).Nodup) {a : α} (ha : a ∈ rows)
    {f : α → List β} {label : β → κ} (hlabel : ∀ r ∈ rows, ∀ b ∈ f r, label b = key r) :
    (rows.flatMap f).filter (fun b => label b = key a) = f a := by
  obtain ⟨before, after, rfl⟩ := List.append_of_mem ha
  rw [List.map_append, List.map_cons, List.nodup_middle, List.nodup_cons, ← List.map_append] at h
  have hother : ∀ r ∈ before ++ after, (f r).filter (fun b => label b = key a) = [] := by
    intro r hr
    refine List.filter_eq_nil_iff.mpr fun b hb => ?_
    have hne : key r ≠ key a := fun hk => h.1 (hk ▸ List.mem_map_of_mem hr)
    rw [hlabel r (by simpa [or_left_comm] using Or.inr (List.mem_append.mp hr)) b hb]
    simpa using hne
  rw [List.filter_flatMap, List.flatMap_append, List.flatMap_cons,
    List.flatMap_eq_nil_iff.mpr fun r hr => hother r (List.mem_append_left _ hr),
    List.flatMap_eq_nil_iff.mpr fun r hr => hother r (List.mem_append_right _ hr),
    List.nil_append, List.append_nil]
  exact List.filter_eq_self.mpr fun b hb => by simp [hlabel a (by simp) b hb]

/-- The rows whose unique column is among those of `some` are these rows. -/
theorem filter_mem_keys (h : (rows.map key).Nodup) {some : List α} (hsub : ∀ a ∈ some, a ∈ rows) :
    ∀ a, a ∈ rows.filter (fun r => key r ∈ some.map key) ↔ a ∈ some := by
  intro a
  rw [List.mem_filter, decide_eq_true_eq, List.mem_map]
  constructor
  · rintro ⟨ha, b, hb, hk⟩
    exact eq_of_key_eq h (hsub b hb) ha hk ▸ hb
  · exact fun ha => ⟨hsub a ha, a, ha, rfl⟩

theorem filter_mem_keys_perm (h : (rows.map key).Nodup) {some : List α}
    (hsub : ∀ a ∈ some, a ∈ rows) (hnd : some.Nodup) :
    (rows.filter fun r => key r ∈ some.map key).Perm some :=
  (List.perm_ext_iff_of_nodup ((List.Nodup.of_map key h).filter _) hnd).mpr
    (filter_mem_keys h hsub)

/-- Replacing a row keeps the columns that the new row has in common with it. -/
theorem map_replace {β : Type*} {f : α → β} (h : (rows.map key).Nodup) {a new : α} (ha : a ∈ rows)
    (hf : f new = f a) :
    (rows.map fun r => if key r = key a then new else r).map f = rows.map f := by
  rw [List.map_map]
  refine List.map_congr_left fun r hr => ?_
  simp only [Function.comp_apply]
  split
  · rename_i hk
    rw [hf, eq_of_key_eq h hr ha hk]
  · rfl

/-- The rows of one table whose key another table does not have. -/
def removedRows (key : α → κ) (rows rows' : List α) : List α :=
  rows.filter fun a => !rows'.any fun b => key b = key a

theorem mem_removedRows {rows' : List α} {a : α} :
    a ∈ removedRows key rows rows' ↔ a ∈ rows ∧ ∀ b ∈ rows', key b ≠ key a := by
  simp [removedRows]

/-- The removed rows are those with the keys `gone`. -/
theorem removedRows_eq {rows' : List α} (gone : List κ)
    (hkeep : ∀ a ∈ rows, key a ∉ gone → ∃ b ∈ rows', key b = key a)
    (hgone : ∀ b ∈ rows', key b ∉ gone) :
    removedRows key rows rows' = rows.filter fun a => key a ∈ gone := by
  refine List.filter_congr fun a ha => ?_
  by_cases hk : key a ∈ gone
  · have : ∀ b ∈ rows', key b ≠ key a := fun b hb heq => hgone b hb (heq ▸ hk)
    simpa [hk] using this
  · simpa [hk] using hkeep a ha hk

theorem removedRows_filter (gone : List κ) :
    removedRows key rows (rows.filter fun a => key a ∉ gone) =
      rows.filter fun a => key a ∈ gone :=
  removedRows_eq gone (fun a ha hk => ⟨a, List.mem_filter.mpr ⟨ha, by simpa using hk⟩, rfl⟩)
    fun b hb => by simpa using (List.mem_filter.mp hb).2

theorem removedRows_self : removedRows key rows rows = [] := by
  rw [List.eq_nil_iff_forall_not_mem]
  exact fun a ha => (mem_removedRows.mp ha).2 a (mem_removedRows.mp ha).1 rfl

/-- The rows of one table whose key another table has too. -/
theorem countP_kept_le {rows' : List α} (h : (rows.map key).Nodup) (p : α → Bool)
    (hsame : ∀ a ∈ rows, ∀ b ∈ rows', key b = key a → p b = p a) :
    (rows.filter fun a => rows'.any fun b => key b = key a).countP p ≤
      (rows'.filter fun b => rows.any fun a => key a = key b).countP p := by
  rw [List.countP_eq_length_filter, List.countP_eq_length_filter, ← List.length_map (f := key),
    ← List.length_map (f := key)]
  refine (List.subperm_of_subset (h.sublist ?_) fun k hk => ?_).length_le
  · exact (List.filter_sublist.trans List.filter_sublist).map key
  · obtain ⟨a, ha, rfl⟩ := List.mem_map.mp hk
    obtain ⟨ha, hpa⟩ := List.mem_filter.mp ha
    obtain ⟨ha, hkept⟩ := List.mem_filter.mp ha
    obtain ⟨b, hb, hkey⟩ := List.any_eq_true.mp hkept
    rw [decide_eq_true_eq] at hkey
    refine List.mem_map.mpr ⟨b, List.mem_filter.mpr ⟨List.mem_filter.mpr ⟨hb, ?_⟩, ?_⟩, hkey⟩
    · exact List.any_eq_true.mpr ⟨a, ha, by simpa using hkey.symm⟩
    · rw [hsame a ha b hb hkey, hpa]

/-- Two tables differ in the rows that only one of them has, when a key decides about `p`. -/
theorem countP_removedRows {rows' : List α} (h : (rows.map key).Nodup)
    (h' : (rows'.map key).Nodup) (p : α → Bool)
    (hsame : ∀ a ∈ rows, ∀ b ∈ rows', key b = key a → p b = p a) :
    rows'.countP p + (removedRows key rows rows').countP p =
      rows.countP p + (removedRows key rows' rows).countP p := by
  have hle := countP_kept_le h p hsame
  have hge := countP_kept_le h' p fun b hb a ha hkey => (hsame a ha b hb hkey.symm).symm
  have hrows := List.countP_eq_countP_filter_add rows p
    fun a => rows'.any fun b => key b = key a
  have hrows' := List.countP_eq_countP_filter_add rows' p
    fun b => rows.any fun a => key a = key b
  simp only [removedRows]
  omega

omit [DecidableEq κ] in
/-- The rows of a list of keys, when there is one for each. -/
theorem exists_rows_of_keys {P : α → Prop} {keys : List κ}
    (h : ∀ k ∈ keys, ∃ a ∈ rows, key a = k ∧ P a) :
    ∃ as : List α, as.map key = keys ∧ ∀ a ∈ as, a ∈ rows ∧ P a := by
  induction keys with
  | nil => exact ⟨[], rfl, by simp⟩
  | cons k keys ih =>
    obtain ⟨a, ha, rfl, hP⟩ := h k List.mem_cons_self
    obtain ⟨as, rfl, has⟩ := ih fun k' hk' => h k' (List.mem_cons_of_mem _ hk')
    exact ⟨a :: as, rfl, List.forall_mem_cons.mpr ⟨⟨ha, hP⟩, has⟩⟩

end Unique


/-! ## Statements -/

/-- The fate of one row under a data-modifying statement. -/
inductive RowChange (α : Type*)
  | keep
  | delete
  | update (new : α)

namespace RowChange

/-- The row's version after the statement, if it survives. -/
def result (a : α) : RowChange α → Option α
  | keep => some a
  | delete => none
  | update new => some new

/-- `RETURNING` of a `DELETE`. -/
def deleted : RowChange α → Bool
  | delete => true
  | _ => false

/-- The old and the new version of an updated row. -/
def updated (a : α) : RowChange α → Option (α × α)
  | update new => some (a, new)
  | _ => none

@[simp] theorem result_keep (a : α) : (keep : RowChange α).result a = some a := rfl
@[simp] theorem result_delete (a : α) : (delete : RowChange α).result a = none := rfl
@[simp] theorem result_update (a b : α) : (update b).result a = some b := rfl
@[simp] theorem deleted_keep : (keep : RowChange α).deleted = false := rfl
@[simp] theorem deleted_delete : (delete : RowChange α).deleted = true := rfl
@[simp] theorem deleted_update (b : α) : (update b).deleted = false := rfl
@[simp] theorem updated_keep (a : α) : (keep : RowChange α).updated a = none := rfl
@[simp] theorem updated_delete (a : α) : (delete : RowChange α).updated a = none := rfl
@[simp] theorem updated_update (a b : α) : (update b).updated a = some (a, b) := rfl

end RowChange

variable (change : α → RowChange α)

/-- The table after the statement. -/
def applyChanges (rows : List α) : List α := rows.filterMap fun a => (change a).result a

/-- The rows the statement deletes. -/
def deletedRows (rows : List α) : List α := rows.filter fun a => (change a).deleted

/-- The rows the statement updates, each with its new version. -/
def updatedRows (rows : List α) : List (α × α) := rows.filterMap fun a => (change a).updated a

variable {change} {rows : List α}

theorem mem_applyChanges {b : α} :
    b ∈ applyChanges change rows ↔ ∃ a ∈ rows, (change a).result a = some b := by
  simp [applyChanges]

theorem mem_deletedRows {a : α} :
    a ∈ deletedRows change rows ↔ a ∈ rows ∧ change a = .delete := by
  unfold deletedRows
  rw [List.mem_filter]
  cases change a <;> simp

theorem mem_updatedRows {a b : α} :
    (a, b) ∈ updatedRows change rows ↔ a ∈ rows ∧ change a = .update b := by
  unfold updatedRows
  rw [List.mem_filterMap]
  constructor
  · rintro ⟨c, hc, hu⟩
    cases hch : change c with
    | update new => simp_all
    | keep => simp [hch] at hu
    | delete => simp [hch] at hu
  · rintro ⟨ha, hch⟩
    exact ⟨a, ha, by simp [hch]⟩

/-- A new version of an updated row is in the table afterwards. -/
theorem mem_applyChanges_of_updated {b : α}
    (h : b ∈ (updatedRows change rows).map Prod.snd) : b ∈ applyChanges change rows := by
  obtain ⟨⟨a, b'⟩, hab, rfl⟩ := List.mem_map.mp h
  obtain ⟨ha, hch⟩ := mem_updatedRows.mp hab
  exact mem_applyChanges.mpr ⟨a, ha, by simp [hch]⟩

/-- The old versions of the updated rows are a sublist of the table. -/
theorem old_sublist (change : α → RowChange α) (rows : List α) :
    ((updatedRows change rows).map Prod.fst).Sublist rows := by
  induction rows with
  | nil => simp [updatedRows]
  | cons a rows ih =>
    unfold updatedRows at ih ⊢
    cases hch : change a <;> simp only [List.filterMap_cons, hch, RowChange.updated_keep,
      RowChange.updated_delete, RowChange.updated_update]
    · exact ih.cons a
    · exact ih.cons a
    · exact ih.cons_cons a

/-- The new versions of the updated rows are a sublist of the table afterwards. -/
theorem new_sublist (change : α → RowChange α) (rows : List α) :
    ((updatedRows change rows).map Prod.snd).Sublist (applyChanges change rows) := by
  induction rows with
  | nil => simp [updatedRows]
  | cons a rows ih =>
    unfold updatedRows applyChanges at ih ⊢
    cases hch : change a <;>
      simp only [List.filterMap_cons, hch, RowChange.updated_keep, RowChange.updated_delete,
        RowChange.updated_update, RowChange.result_keep, RowChange.result_delete,
        RowChange.result_update]
    · exact ih.cons a
    · exact ih
    · exact ih.cons_cons _

/-- **The balance of a statement**: rows counted after it, plus the deleted and the old
    ones, are the rows counted before it, plus the new ones. -/
theorem countP_applyChanges (change : α → RowChange α) (p : α → Bool) (rows : List α) :
    (applyChanges change rows).countP p + (deletedRows change rows).countP p +
        ((updatedRows change rows).map Prod.fst).countP p =
      rows.countP p + ((updatedRows change rows).map Prod.snd).countP p := by
  induction rows with
  | nil => simp [applyChanges, deletedRows, updatedRows]
  | cons a rows ih =>
    unfold applyChanges deletedRows updatedRows at ih ⊢
    cases hch : change a with
    | keep => simp [hch, List.countP_cons, -List.countP_map]; omega
    | delete => simp [hch, List.countP_cons, -List.countP_map]; omega
    | update b => simp [hch, List.countP_cons, -List.countP_map]; omega

/-- A statement takes away only rows that are there, and no row twice. -/
theorem countP_touched_le (change : α → RowChange α) (p : α → Bool) (rows : List α) :
    (deletedRows change rows).countP p + ((updatedRows change rows).map Prod.fst).countP p ≤
      rows.countP p := by
  induction rows with
  | nil => simp [deletedRows, updatedRows]
  | cons a rows ih =>
    unfold deletedRows updatedRows at ih ⊢
    cases hch : change a with
    | keep => simp [hch, List.countP_cons, -List.countP_map]; omega
    | delete => simp [hch, List.countP_cons, -List.countP_map]; omega
    | update b => simp [hch, List.countP_cons, -List.countP_map]; omega

end Relational
