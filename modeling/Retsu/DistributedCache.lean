/-
  The shared cache: its keys, its entries and its commands.

  A queue has two keys, one for its details and one for the loading marker.  Both are strings in
  one keyspace, and `detailsKey_ne_loadLockKey` and `detailsKey_injective` say that no two of them
  meet.
-/
import Retsu.Domain

namespace Retsu

/-! ## Keys -/

/-- The last digits of a number in base 16. -/
def hexDigits : Nat → Nat → List Char
  | 0, _ => []
  | width + 1, value => hexDigits width (value / 16) ++ [Nat.digitChar (value % 16)]

/-- The hyphenated text of a UUID. -/
def hyphenated (id : Uuid) : List Char :=
  let digits := hexDigits 32 id.val
  digits.take 8 ++ '-' :: (digits.drop 8).take 4 ++ '-' :: (digits.drop 12).take 4 ++
    '-' :: (digits.drop 16).take 4 ++ '-' :: digits.drop 20

def keyPrefix : String := "retsu:queue_details"

def detailsKey (queueId : Uuid) : String := keyPrefix ++ ":" ++ String.ofList (hyphenated queueId)

def loadLockKey (queueId : Uuid) : String := detailsKey queueId ++ ":load-lock"

theorem hexDigits_length (width value : Nat) : (hexDigits width value).length = width := by
  induction width generalizing value with
  | zero => rfl
  | succ width ih => rw [hexDigits, List.length_append, ih, List.length_singleton]

theorem digitChar_injective {a b : Nat} (ha : a < 16) (hb : b < 16)
    (h : Nat.digitChar a = Nat.digitChar b) : a = b := by
  interval_cases a <;> interval_cases b <;> first | rfl | exact absurd h (by decide)

theorem digitChar_ne_hyphen {a : Nat} (ha : a < 16) : Nat.digitChar a ≠ '-' := by
  interval_cases a <;> decide

/-- The digits determine the number. -/
theorem hexDigits_injective {width a b : Nat} (ha : a < 16 ^ width) (hb : b < 16 ^ width)
    (h : hexDigits width a = hexDigits width b) : a = b := by
  induction width generalizing a b with
  | zero =>
    have ha' : a = 0 := by simpa using ha
    have hb' : b = 0 := by simpa using hb
    rw [ha', hb']
  | succ width ih =>
    obtain ⟨hinit, hlast⟩ := List.append_inj' h rfl
    have hquotient := ih (Nat.div_lt_of_lt_mul (Nat.pow_succ' ▸ ha))
      (Nat.div_lt_of_lt_mul (Nat.pow_succ' ▸ hb)) hinit
    have hremainder := digitChar_injective (Nat.mod_lt a (by decide)) (Nat.mod_lt b (by decide))
      (List.singleton_inj.mp hlast)
    omega

theorem hexDigits_not_hyphen {width value : Nat} {c : Char} (hc : c ∈ hexDigits width value) :
    c ≠ '-' := by
  induction width generalizing value with
  | zero => simp [hexDigits] at hc
  | succ width ih =>
    rcases List.mem_append.mp hc with hc | hc
    · exact ih hc
    · rw [List.mem_singleton.mp hc]
      exact digitChar_ne_hyphen (Nat.mod_lt value (by decide))

/-- Without its hyphens the text is the digits. -/
theorem hyphenated_filter (id : Uuid) :
    (hyphenated id).filter (· ≠ '-') = hexDigits 32 id.val := by
  have hkeep : ∀ part : List Char, part ⊆ hexDigits 32 id.val → part.filter (· ≠ '-') = part := by
    refine fun part hpart => List.filter_eq_self.mpr fun c hc => ?_
    simpa using hexDigits_not_hyphen (hpart hc)
  have hhyphen : ∀ rest : List Char, ('-' :: rest).filter (· ≠ '-') = rest.filter (· ≠ '-') :=
    fun rest => List.filter_cons_of_neg (by simp)
  have hfirst := hkeep _ (List.take_subset 8 _)
  have hmiddle := fun n => hkeep (((hexDigits 32 id.val).drop n).take 4)
    fun _ hc => List.mem_of_mem_drop (List.mem_of_mem_take hc)
  have hlast := hkeep _ (List.drop_subset 20 _)
  have hjoin : ∀ n, ((hexDigits 32 id.val).drop n).take 4 ++ (hexDigits 32 id.val).drop (n + 4) =
      (hexDigits 32 id.val).drop n := by
    intro n
    rw [← List.drop_drop, List.take_append_drop]
  simp only [hyphenated, List.filter_append, hhyphen, hfirst, hmiddle, hlast, List.append_assoc]
  rw [hjoin 16, hjoin 12, hjoin 8, List.take_append_drop]

theorem hyphenated_length (id : Uuid) : (hyphenated id).length = 36 := by
  simp only [hyphenated, List.length_append, List.length_cons, List.length_take, List.length_drop,
    hexDigits_length]
  rfl

/-- Different queues have different keys. -/
theorem detailsKey_injective : Function.Injective detailsKey := by
  intro a b h
  have hlist := congrArg String.toList h
  simp only [detailsKey, String.toList_append, String.toList_ofList] at hlist
  have hdigits : hexDigits 32 a.val = hexDigits 32 b.val := by
    rw [← hyphenated_filter, ← hyphenated_filter, List.append_cancel_left hlist]
  have hbound : ∀ id : Uuid, id.val < 16 ^ 32 := fun id => lt_of_lt_of_eq id.isLt (by norm_num)
  exact Fin.ext (hexDigits_injective (hbound a) (hbound b) hdigits)

/-- A loading marker is not under the key of any queue's details. -/
theorem detailsKey_ne_loadLockKey (a b : Uuid) : detailsKey a ≠ loadLockKey b := by
  intro h
  have hlength := congrArg (fun s => s.toList.length) h
  simp only [loadLockKey, detailsKey, String.toList_append, String.toList_ofList,
    List.length_append, hyphenated_length] at hlength
  have hsuffix : ":load-lock".toList.length = 10 := by decide
  omega

/-! ## Entries -/

/-- A value of the cache; the JSON text of a value stands for itself. -/
inductive CachedQueueDetails
  | found (details : QueueDetails)
  | missing
deriving DecidableEq, Repr

def CachedQueueDetails.intoDetails : CachedQueueDetails → Option QueueDetails
  | found details => some details
  | missing => none

inductive CacheValue
  | queueDetails (details : CachedQueueDetails)
  /-- The marker, `b"1"`. -/
  | loadLock
deriving DecidableEq, Repr

/-- The times to live, in milliseconds. -/
def detailsTtl : Int := 300000
def missingTtl : Int := 5000
def loadLockTtl : Int := 2000

def CachedQueueDetails.ttl : CachedQueueDetails → Int
  | found _ => detailsTtl
  | missing => missingTtl

theorem CachedQueueDetails.ttl_le (value : CachedQueueDetails) : value.ttl ≤ detailsTtl := by
  cases value <;> simp [ttl, detailsTtl, missingTtl]

structure CacheEntry where
  value : CacheValue
  expiresAt : Int
  /-- The call that has set the entry. -/
  setBy : Nat
deriving DecidableEq, Repr

def CacheStore := String → Option CacheEntry

namespace CacheStore

def empty : CacheStore := fun _ => none

/-- `GET`, at the cache's time. -/
def get (store : CacheStore) (clock : Int) (key : String) : Option CacheEntry :=
  (store key).filter fun e => clock < e.expiresAt

/-- `SET … PX`. -/
def set (store : CacheStore) (key : String) (e : CacheEntry) : CacheStore :=
  fun k => if k = key then some e else store k

/-- `SET … NX PX`, when the key is free. -/
def setIfAbsent (store : CacheStore) (clock : Int) (key : String) (e : CacheEntry) : CacheStore :=
  if (store.get clock key).isNone then store.set key e else store

/-- The cache drops an entry. -/
def evict (store : CacheStore) (key : String) : CacheStore :=
  fun k => if k = key then none else store k

variable {store : CacheStore} {clock : Int} {key other : String} {e e' : CacheEntry}

theorem get_eq_some : store.get clock key = some e ↔ store key = some e ∧ clock < e.expiresAt := by
  rw [get, Option.filter_eq_some_iff, decide_eq_true_eq]

@[simp] theorem set_self : store.set key e key = some e := if_pos rfl

theorem set_other (h : other ≠ key) : store.set key e other = store other := if_neg h

theorem setIfAbsent_other (h : other ≠ key) :
    store.setIfAbsent clock key e other = store other := by
  unfold setIfAbsent
  split
  · exact set_other h
  · rfl

end CacheStore

end Retsu
