/-
  Patterns over text, and the bytes of text that they match.

  A bracket expression and a bounded repetition of it, as languages over characters, so that a
  regular expression of a CHECK constraint is an expression with the operations of languages.  A
  pattern that reads bytes agrees with one that reads characters as long as both stay in ASCII
  (`all_bytes`, `bytes_eq_map`).
-/
import Mathlib.Computability.Language

namespace Relational

/-! ## Classes and repetitions -/

/-- `[…]`: one character of the class. -/
def charClass (p : Char → Bool) : Language Char := fun w => ∃ c, p c = true ∧ w = [c]

/-- `l{lo,hi}`. -/
def repeated (lo hi : Nat) (l : Language Char) : Language Char :=
  fun w => ∃ k, lo ≤ k ∧ k ≤ hi ∧ w ∈ l ^ k

variable {p : Char → Bool} {w : List Char}

theorem mem_charClass : w ∈ charClass p ↔ ∃ c, p c = true ∧ w = [c] := Iff.rfl

theorem mem_charClass_pow {k : Nat} :
    w ∈ charClass p ^ k ↔ w.length = k ∧ ∀ c ∈ w, p c = true := by
  induction k generalizing w with
  | zero =>
    rw [pow_zero, Language.mem_one, List.length_eq_zero_iff]
    constructor
    · rintro rfl
      simp
    · exact fun h => h.1
  | succ k ih =>
    rw [pow_succ', Language.mem_mul]
    constructor
    · rintro ⟨a, ⟨c, hc, rfl⟩, b, hb, rfl⟩
      obtain ⟨hlength, hall⟩ := ih.mp hb
      exact ⟨by simp [hlength], List.forall_mem_cons.mpr ⟨hc, hall⟩⟩
    · rintro ⟨hlength, hall⟩
      cases w with
      | nil => simp at hlength
      | cons c rest =>
        obtain ⟨hc, hrest⟩ := List.forall_mem_cons.mp hall
        exact ⟨[c], ⟨c, hc, rfl⟩, rest, ih.mpr ⟨by simpa using hlength, hrest⟩, rfl⟩

theorem mem_repeated_charClass {lo hi : Nat} : w ∈ repeated lo hi (charClass p) ↔
    lo ≤ w.length ∧ w.length ≤ hi ∧ ∀ c ∈ w, p c = true := by
  constructor
  · rintro ⟨k, hlo, hhi, hw⟩
    obtain ⟨rfl, hall⟩ := mem_charClass_pow.mp hw
    exact ⟨hlo, hhi, hall⟩
  · rintro ⟨hlo, hhi, hall⟩
    exact ⟨w.length, hlo, hhi, mem_charClass_pow.mpr ⟨rfl, hall⟩⟩

/-! ## The bytes of a text -/

/-- The UTF-8 bytes of a text. -/
def bytes (s : String) : List UInt8 := s.toByteArray.data.toList

theorem bytes_eq_flatMap (s : String) : bytes s = s.toList.flatMap String.utf8EncodeChar := by
  have h : bytes (String.ofList s.toList) = s.toList.flatMap String.utf8EncodeChar := by
    rw [bytes, String.toByteArray_ofList]
    exact List.toList_data_toByteArray
  rwa [String.ofList_toList] at h

theorem bytes_length (s : String) : (bytes s).length = s.utf8ByteSize := rfl

theorem utf8EncodeChar_eq {c : Char} (h : c.toNat < 128) :
    String.utf8EncodeChar c = [c.toUInt8] :=
  String.utf8EncodeChar_eq_singleton
    (Char.utf8Size_eq_one_iff.mpr (UInt32.le_iff_toNat_le.mpr (Nat.le_of_lt_succ h)))

/-- A byte below 128 is the encoding of an ASCII character. -/
theorem ascii_of_mem_utf8EncodeChar {c : Char} {b : UInt8} (hb : b ∈ String.utf8EncodeChar c)
    (hascii : b.toNat < 128) : c.toNat < 128 := by
  have hmarked : ∀ x y : UInt8, 128 ≤ y.toNat → b = x ||| y → False := by
    rintro x y hy rfl
    have : y.toNat ≤ x.toNat ||| y.toNat := Nat.right_le_or
    rw [UInt8.toNat_or] at hascii
    omega
  rcases Char.utf8Size_eq c with hsize | hsize | hsize | hsize
  · exact Nat.lt_succ_of_le (UInt32.le_iff_toNat_le.mp (Char.utf8Size_eq_one_iff.mp hsize))
  -- every byte of a longer encoding has its highest bit set
  · rw [String.utf8EncodeChar_eq_cons_cons hsize] at hb
    simp only [List.mem_cons, List.not_mem_nil, or_false] at hb
    rcases hb with hb | hb
    · exact (hmarked _ _ (by decide) hb).elim
    · exact (hmarked _ _ (by decide) hb).elim
  · rw [String.utf8EncodeChar_eq_cons_cons_cons hsize] at hb
    simp only [List.mem_cons, List.not_mem_nil, or_false] at hb
    rcases hb with hb | hb | hb
    · exact (hmarked _ _ (by decide) hb).elim
    · exact (hmarked _ _ (by decide) hb).elim
    · exact (hmarked _ _ (by decide) hb).elim
  · rw [String.utf8EncodeChar_eq_cons_cons_cons_cons hsize] at hb
    simp only [List.mem_cons, List.not_mem_nil, or_false] at hb
    rcases hb with hb | hb | hb | hb
    · exact (hmarked _ _ (by decide) hb).elim
    · exact (hmarked _ _ (by decide) hb).elim
    · exact (hmarked _ _ (by decide) hb).elim
    · exact (hmarked _ _ (by decide) hb).elim

/-- The bytes of an ASCII text are its characters. -/
theorem bytes_eq_map {s : String} (h : ∀ c ∈ s.toList, c.toNat < 128) :
    bytes s = s.toList.map Char.toUInt8 := by
  rw [bytes_eq_flatMap, List.map_eq_flatMap]
  exact List.flatMap_congr fun c hc => utf8EncodeChar_eq (h c hc)

/-- All bytes are in a class of ASCII bytes exactly when all characters are in the class of their
    characters. -/
theorem all_bytes {q : UInt8 → Bool} (hascii : ∀ b, q b = true → b.toNat < 128)
    (hpq : ∀ c : Char, p c = true ↔ c.toNat < 128 ∧ q c.toUInt8 = true) (s : String) :
    (∀ b ∈ bytes s, q b = true) ↔ ∀ c ∈ s.toList, p c = true := by
  rw [bytes_eq_flatMap]
  constructor
  · intro h c hc
    obtain ⟨b, hb⟩ := List.exists_mem_of_ne_nil _ (String.utf8EncodeChar_ne_nil (c := c))
    have hmem := fun b hb => h b (List.mem_flatMap.mpr ⟨c, hc, hb⟩)
    have hc := ascii_of_mem_utf8EncodeChar hb (hascii b (hmem b hb))
    refine (hpq c).mpr ⟨hc, hmem c.toUInt8 ?_⟩
    rw [utf8EncodeChar_eq hc]
    exact List.mem_singleton.mpr rfl
  · intro h b hb
    obtain ⟨c, hc, hb⟩ := List.mem_flatMap.mp hb
    obtain ⟨hsmall, hq⟩ := (hpq c).mp (h c hc)
    rw [utf8EncodeChar_eq hsmall] at hb
    exact List.mem_singleton.mp hb ▸ hq

end Relational
