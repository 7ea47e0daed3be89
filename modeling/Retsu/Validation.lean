/-
  The validation of queues and the constraints on their table say the same.

  The rules are written twice: as a scan of bytes with range checks in `domain/queue.rs`, and as a
  regular expression and CHECK constraints in the migrations.  `nameFormat` is the regular
  expression as a language; `matchesNameFormat` and `validateQueueName` both decide it.
-/
import Retsu.Application
import Retsu.Effect
import Retsu.Relational.Pattern

namespace Retsu

open Relational

/-! ## Names -/

/-- `^[a-z0-9]([a-z0-9._-]{0,62}[a-z0-9])?$`. -/
def nameFormat : Language Char :=
  charClass isNameEndpoint *
    (1 + repeated 0 62 (charClass isNameCharacter) * charClass isNameEndpoint)

/-- What a list of characters that matches the format looks like. -/
structure FormattedName (w : List Char) : Prop where
  start : ∃ c ∈ w.head?, isNameEndpoint c
  finish : ∃ c ∈ w.getLast?, isNameEndpoint c
  characters : ∀ c ∈ w, isNameCharacter c
  length : w.length ≤ 64

theorem isNameCharacter_of_endpoint {c : Char} (h : isNameEndpoint c) : isNameCharacter c := by
  simp [isNameCharacter, h]

/-- The one-character names and the longer ones, told apart. -/
theorem formattedName_cases {first : Char} {rest : List Char} : FormattedName (first :: rest) ↔
    isNameEndpoint first ∧ (rest = [] ∨ ∃ middle last, rest = middle ++ [last] ∧
      (∀ c ∈ middle, isNameCharacter c) ∧ middle.length ≤ 62 ∧ isNameEndpoint last) := by
  constructor
  · rintro ⟨⟨c, hc, hstart⟩, ⟨d, hd, hfinish⟩, hall, hlength⟩
    obtain rfl := Option.mem_some_iff.mp hc
    refine ⟨hstart, ?_⟩
    rcases List.eq_nil_or_concat' rest with rfl | ⟨middle, last, rfl⟩
    · exact Or.inl rfl
    · refine Or.inr ⟨middle, last, rfl, fun c hc => hall c (by simp [hc]), ?_, ?_⟩
      · simp only [List.length_cons, List.length_append, List.length_nil] at hlength
        omega
      · rw [← List.cons_append, List.getLast?_concat] at hd
        exact Option.mem_some_iff.mp hd ▸ hfinish
  · rintro ⟨hstart, rfl | ⟨middle, last, rfl, hmiddle, hlength, hlast⟩⟩
    · exact ⟨⟨first, rfl, hstart⟩, ⟨first, rfl, hstart⟩,
        by simpa using isNameCharacter_of_endpoint hstart, by simp⟩
    · refine ⟨⟨first, rfl, hstart⟩, ⟨last, ?_, hlast⟩, ?_, ?_⟩
      · rw [← List.cons_append, List.getLast?_concat]
        rfl
      · intro c hc
        rcases List.mem_cons.mp hc with rfl | hc
        · exact isNameCharacter_of_endpoint hstart
        · rcases List.mem_append.mp hc with hc | hc
          · exact hmiddle c hc
          · exact List.mem_singleton.mp hc ▸ isNameCharacter_of_endpoint hlast
      · simp only [List.length_cons, List.length_append, List.length_nil]
        omega

theorem mem_nameFormat {w : List Char} : w ∈ nameFormat ↔ FormattedName w := by
  rw [nameFormat, Language.mem_mul]
  cases w with
  | nil =>
    constructor
    · rintro ⟨a, ⟨c, -, rfl⟩, b, -, h⟩
      simp at h
    · rintro ⟨⟨c, hc, -⟩, -⟩
      simp at hc
  | cons first rest =>
    rw [formattedName_cases]
    simp only [mem_charClass, Language.mem_add, Language.mem_one, Language.mem_mul,
      mem_repeated_charClass]
    constructor
    · rintro ⟨a, ⟨c, hc, rfl⟩, b, hb, h⟩
      obtain ⟨rfl, rfl⟩ := List.cons.inj h
      refine ⟨hc, hb.imp id ?_⟩
      rintro ⟨middle, ⟨-, hlength, hmiddle⟩, _, ⟨last, hlast, rfl⟩, rfl⟩
      exact ⟨middle, last, rfl, hmiddle, hlength, hlast⟩
    · rintro ⟨hfirst, hrest⟩
      refine ⟨[first], ⟨first, hfirst, rfl⟩, rest, hrest.imp id ?_, rfl⟩
      rintro ⟨middle, last, rfl, hmiddle, hlength, hlast⟩
      exact ⟨middle, ⟨Nat.zero_le _, hlength, hmiddle⟩, [last], ⟨last, hlast, rfl⟩, rfl⟩

/-- The CHECK constraint decides the language. -/
theorem matchesNameFormat_iff {name : String} :
    matchesNameFormat name ↔ name.toList ∈ nameFormat := by
  rw [mem_nameFormat, matchesNameFormat]
  cases name.toList with
  | nil =>
    simp only [Bool.false_eq_true, false_iff]
    rintro ⟨⟨c, hc, -⟩, -⟩
    simp at hc
  | cons first rest =>
    rw [formattedName_cases, Bool.and_eq_true]
    refine and_congr_right fun _ => ?_
    rcases List.eq_nil_or_concat' rest with rfl | ⟨middle, last, rfl⟩
    · simp
    · simp only [List.getLast?_concat, List.dropLast_concat, Bool.and_eq_true, List.all_eq_true,
        decide_eq_true_eq]
      constructor
      · rintro ⟨⟨hlast, hmiddle⟩, hlength⟩
        exact Or.inr ⟨middle, last, rfl, hmiddle, hlength, hlast⟩
      · rintro (h | ⟨middle', last', heq, hmiddle, hlength, hlast⟩)
        · simp at h
        · obtain ⟨rfl, hl⟩ := List.append_inj' heq rfl
          obtain rfl := List.singleton_inj.mp hl
          exact ⟨⟨hlast, hmiddle⟩, hlength⟩

/-! ## Bytes -/

theorem isNameEndpoint_iff {c : Char} : isNameEndpoint c ↔
    (97 ≤ c.toNat ∧ c.toNat ≤ 122) ∨ (48 ≤ c.toNat ∧ c.toNat ≤ 57) := by
  simp only [isNameEndpoint, decide_eq_true_eq, Char.le_def, UInt32.le_iff_toNat_le]
  rfl

theorem isNameCharacter_iff {c : Char} : isNameCharacter c ↔
    isNameEndpoint c ∨ c.toNat = 46 ∨ c.toNat = 95 ∨ c.toNat = 45 := by
  simp only [isNameCharacter, decide_eq_true_eq, ← Char.toNat_inj]
  rfl

theorem isQueueNameEndpoint_iff {b : UInt8} : isQueueNameEndpoint b ↔
    (97 ≤ b.toNat ∧ b.toNat ≤ 122) ∨ (48 ≤ b.toNat ∧ b.toNat ≤ 57) := by
  simp only [isQueueNameEndpoint, decide_eq_true_eq, UInt8.le_iff_toNat_le]
  rfl

theorem isQueueNameCharacter_iff {b : UInt8} : isQueueNameCharacter b ↔
    isQueueNameEndpoint b ∨ b.toNat = 46 ∨ b.toNat = 95 ∨ b.toNat = 45 := by
  simp only [isQueueNameCharacter, decide_eq_true_eq, ← UInt8.toNat_inj]
  rfl

/-- The classes of the bytes are those of their characters. -/
theorem endpoint_byte (c : Char) :
    isNameEndpoint c = true ↔ c.toNat < 128 ∧ isQueueNameEndpoint c.toUInt8 = true := by
  have hbyte : c.toUInt8.toNat = c.toNat % 256 := rfl
  rw [isNameEndpoint_iff, isQueueNameEndpoint_iff, hbyte]
  omega

theorem character_byte (c : Char) :
    isNameCharacter c = true ↔ c.toNat < 128 ∧ isQueueNameCharacter c.toUInt8 = true := by
  have hbyte : c.toUInt8.toNat = c.toNat % 256 := rfl
  rw [isNameCharacter_iff, isQueueNameCharacter_iff, isNameEndpoint_iff, isQueueNameEndpoint_iff,
    hbyte]
  omega

theorem character_ascii (b : UInt8) (h : isQueueNameCharacter b = true) : b.toNat < 128 := by
  rw [isQueueNameCharacter_iff, isQueueNameEndpoint_iff] at h
  omega

/-- The first or the last byte of an ASCII text is an endpoint when the character is. -/
theorem endpoint_any {o : Option Char} (hascii : ∀ c ∈ o, c.toNat < 128) :
    (o.map Char.toUInt8).any isQueueNameEndpoint ↔ ∃ c ∈ o, isNameEndpoint c := by
  cases o with
  | none => simp
  | some c =>
    have := endpoint_byte c
    simp [this, hascii c rfl]

/-- What the scan of the bytes looks at. -/
theorem validateQueueName_ok {value : String} : validateQueueName value = .ok () ↔
    (1 ≤ (bytes value).length ∧ (bytes value).length ≤ 64) ∧
      (bytes value).head?.any isQueueNameEndpoint ∧
      (bytes value).getLast?.any isQueueNameEndpoint ∧
      ∀ b ∈ bytes value, isQueueNameCharacter b := by
  show (if ¬(1 ≤ (bytes value).length ∧ (bytes value).length ≤ 64) then _ else _) = _ ↔ _
  by_cases hlength : 1 ≤ (bytes value).length ∧ (bytes value).length ≤ 64
  · rw [if_neg (not_not.mpr hlength), ite_eq_right_iff]
    simp only [hlength, and_self, true_and, ← List.all_eq_true, reduceCtorEq, imp_false,
      Bool.or_eq_true, Bool.not_eq_true', not_or, Bool.not_eq_false, and_assoc]
    rfl
  · simp [hlength]

/-- The scan of the bytes accepts what the constraints on the name accept. -/
theorem validateQueueName_iff {value : String} : validateQueueName value = .ok () ↔
    (1 ≤ value.utf8ByteSize ∧ value.utf8ByteSize ≤ 64) ∧ value.toList ∈ nameFormat := by
  have hall := all_bytes character_ascii character_byte value
  rw [validateQueueName_ok, mem_nameFormat, bytes_length]
  refine and_congr_right fun hlength => ?_
  -- both scans accept ASCII characters only
  have hscan : (∀ c ∈ value.toList, isNameCharacter c) →
      (((bytes value).head?.any isQueueNameEndpoint ∧
        (bytes value).getLast?.any isQueueNameEndpoint) ↔
          (∃ c ∈ value.toList.head?, isNameEndpoint c) ∧
            ∃ c ∈ value.toList.getLast?, isNameEndpoint c) ∧
      value.toList.length = value.utf8ByteSize := by
    intro hcharacters
    have hascii := fun c hc => ((character_byte c).mp (hcharacters c hc)).1
    have hmap := bytes_eq_map hascii
    rw [← bytes_length, hmap, List.head?_map, List.getLast?_map, List.length_map,
      endpoint_any fun c hc => hascii c (List.mem_of_mem_head? hc),
      endpoint_any fun c hc => hascii c (List.mem_of_mem_getLast? hc)]
    exact ⟨Iff.rfl, rfl⟩
  constructor
  · rintro ⟨hstart, hfinish, hcharacters⟩
    obtain ⟨hends, hsize⟩ := hscan (hall.mp hcharacters)
    obtain ⟨hstart, hfinish⟩ := hends.mp ⟨hstart, hfinish⟩
    exact ⟨hstart, hfinish, hall.mp hcharacters, hsize ▸ hlength.2⟩
  · rintro ⟨hstart, hfinish, hcharacters, -⟩
    obtain ⟨hends, -⟩ := hscan hcharacters
    obtain ⟨hstart, hfinish⟩ := hends.mpr ⟨hstart, hfinish⟩
    exact ⟨hstart, hfinish, hall.mpr hcharacters⟩

theorem QueueName.parse_iff {value : String} :
    (∃ name, QueueName.parse value = .ok name) ↔
      (1 ≤ value.utf8ByteSize ∧ value.utf8ByteSize ≤ 64) ∧ value.toList ∈ nameFormat := by
  rw [← validateQueueName_iff]
  unfold QueueName.parse
  constructor
  · rintro ⟨name, h⟩
    split at h
    · assumption
    · simp at h
  · intro h
    split
    · exact ⟨_, rfl⟩
    · rename_i hother
      simp [h] at hother

theorem QueueName.parse_asStr {value : String} {name : QueueName}
    (h : QueueName.parse value = .ok name) : name.asStr = value := by
  unfold QueueName.parse at h
  split at h
  · rw [← Except.ok.inj h]
  · simp at h

/-! ## Settings -/

theorem visibilityTimeoutInRange_iff {value : UInt32} :
    visibilityTimeoutInRange value ↔ 1 ≤ (value.toNat : Int) ∧ (value.toNat : Int) ≤ 21600 := by
  simp only [visibilityTimeoutInRange, decide_eq_true_eq, UInt32.le_iff_toNat_le]
  show 1 ≤ value.toNat ∧ value.toNat ≤ 21600 ↔ _
  omega

theorem maxDeliveryAttemptsInRange_iff {value : UInt16} :
    maxDeliveryAttemptsInRange value ↔ 1 ≤ (value.toNat : Int) ∧ (value.toNat : Int) ≤ 100 := by
  simp only [maxDeliveryAttemptsInRange, decide_eq_true_eq, UInt16.le_iff_toNat_le]
  show 1 ≤ value.toNat ∧ value.toNat ≤ 100 ↔ _
  omega

theorem ttlInRange_iff {value : UInt32} :
    ttlInRange value ↔ 1 ≤ (value.toNat : Int) ∧ (value.toNat : Int) ≤ 2592000 := by
  simp only [ttlInRange, decide_eq_true_eq, UInt32.le_iff_toNat_le]
  show 1 ≤ value.toNat ∧ value.toNat ≤ 2592000 ↔ _
  omega

/-- The row that `create_queue` would insert for the arguments of `Queue::new`. -/
def proposedRow (id : Uuid) (name : String) (visibilityTimeoutSeconds : Option UInt32)
    (maxDeliveryAttempts : Option UInt16) (messageTtlSeconds : Option UInt32) (now : Int) :
    QueueRow where
  id := id
  name := name
  visibilityTimeoutSeconds :=
    (visibilityTimeoutSeconds.getD defaultVisibilityTimeoutSeconds).toNat
  maxDeliveryAttempts := (maxDeliveryAttempts.getD defaultMaxDeliveryAttempts).toNat
  defaultMessageTtlSeconds := (messageTtlSeconds.getD defaultMessageTtlSeconds).toNat
  createdAt := now
  updatedAt := now

theorem QueueSettings.new_eq_ok {visibility : Option UInt32} {attempts : Option UInt16}
    {ttl : Option UInt32} {settings : QueueSettings} :
    QueueSettings.new visibility attempts ttl = .ok settings ↔
      settings.visibilityTimeoutSeconds = visibility.getD defaultVisibilityTimeoutSeconds ∧
        settings.maxDeliveryAttempts = attempts.getD defaultMaxDeliveryAttempts ∧
        settings.defaultMessageTtlSeconds = ttl.getD Retsu.defaultMessageTtlSeconds := by
  obtain ⟨v, a, t, hv, ha, ht⟩ := settings
  simp only [QueueSettings.new]
  constructor
  · intro h
    split_ifs at h
    obtain ⟨rfl, rfl, rfl⟩ := QueueSettings.mk.inj (Except.ok.inj h)
    exact ⟨rfl, rfl, rfl⟩
  · rintro ⟨rfl, rfl, rfl⟩
    rw [dif_pos hv, dif_pos ha, dif_pos ht]

/-- What an accepted queue is made of. -/
theorem Queue.new_eq_ok {id : Uuid} {name : String} {visibility : Option UInt32}
    {attempts : Option UInt16} {ttl : Option UInt32} {queue : Queue} :
    Queue.new id name visibility attempts ttl = .ok queue ↔
      queue.id = id ∧ QueueName.parse name = .ok queue.name ∧
        QueueSettings.new visibility attempts ttl = .ok queue.settings := by
  obtain ⟨id', name', settings'⟩ := queue
  rw [Queue.new]
  cases QueueName.parse name <;> cases QueueSettings.new visibility attempts ttl <;>
    simp [Except.mapError, bind, Except.bind, pure, Except.pure, eq_comm]

theorem proposedRow_checked {id : Uuid} {name : String} {visibility : Option UInt32}
    {attempts : Option UInt16} {ttl : Option UInt32} {now : Int} :
    Checked queueChecks (proposedRow id name visibility attempts ttl now) ↔
      (∃ parsed, QueueName.parse name = .ok parsed) ∧
        visibilityTimeoutInRange (visibility.getD defaultVisibilityTimeoutSeconds) ∧
        maxDeliveryAttemptsInRange (attempts.getD defaultMaxDeliveryAttempts) ∧
        ttlInRange (ttl.getD defaultMessageTtlSeconds) := by
  rw [QueueRow.checked_iff, QueueName.parse_iff, visibilityTimeoutInRange_iff,
    maxDeliveryAttemptsInRange_iff, ttlInRange_iff, ← matchesNameFormat_iff]
  simp only [proposedRow, le_refl, and_true, and_assoc]

/-- **`Queue::new` accepts exactly the arguments whose row satisfies every constraint.** -/
theorem Queue.new_iff (id : Uuid) (name : String) (visibility : Option UInt32)
    (attempts : Option UInt16) (ttl : Option UInt32) (now : Int) :
    (∃ queue, Queue.new id name visibility attempts ttl = .ok queue) ↔
      Checked queueChecks (proposedRow id name visibility attempts ttl now) := by
  rw [proposedRow_checked]
  constructor
  · rintro ⟨queue, hqueue⟩
    obtain ⟨-, hname, hsettings⟩ := Queue.new_eq_ok.mp hqueue
    obtain ⟨hv, ha, ht⟩ := QueueSettings.new_eq_ok.mp hsettings
    exact ⟨⟨queue.name, hname⟩, hv ▸ queue.settings.visibility_valid,
      ha ▸ queue.settings.attempts_valid, ht ▸ queue.settings.ttl_valid⟩
  · rintro ⟨⟨parsed, hname⟩, hv, ha, ht⟩
    exact ⟨⟨id, parsed, _, _, _, hv, ha, ht⟩,
      Queue.new_eq_ok.mpr ⟨rfl, hname, QueueSettings.new_eq_ok.mpr ⟨rfl, rfl, rfl⟩⟩⟩

/-! ## Conversions -/

theorem expectI32_ok {text : String} {value : UInt32} (h : (value.toNat : Int) ≤ 2592000) :
    expectI32 text value = .ok (value.toNat : Int) := by
  have hsmall : value.toNat < 2 ^ 31 := by omega
  rw [expectI32, if_pos hsmall]

theorem expectI16_ok {text : String} {value : UInt16} (h : (value.toNat : Int) ≤ 100) :
    expectI16 text value = .ok (value.toNat : Int) := by
  have hsmall : value.toNat < 2 ^ 15 := by omega
  rw [expectI16, if_pos hsmall]

/-- The row of an accepted queue: no conversion panics. -/
theorem Queue.row_ok (queue : Queue) (now : Int) :
    queue.row now = .ok (proposedRow queue.id queue.name.asStr
      (some queue.settings.visibilityTimeoutSeconds) (some queue.settings.maxDeliveryAttempts)
      (some queue.settings.defaultMessageTtlSeconds) now) := by
  have hv := (visibilityTimeoutInRange_iff.mp queue.settings.visibility_valid).2
  have ha := (maxDeliveryAttemptsInRange_iff.mp queue.settings.attempts_valid).2
  have ht := (ttlInRange_iff.mp queue.settings.ttl_valid).2
  simp only [Queue.row, expectI32_ok (hv.trans (by decide)), expectI16_ok ha, expectI32_ok ht]
  rfl

/-- The values that `update_queue` binds for an update. -/
def boundParameters (visibility : Option UInt32) (attempts : Option UInt16) (ttl : Option UInt32) :
    Option Int × Option Int × Option Int :=
  (visibility.map fun value => (value.toNat : Int), attempts.map fun value => (value.toNat : Int),
    ttl.map fun value => (value.toNat : Int))

/-- No conversion of an accepted update panics. -/
theorem QueueConfigurationUpdate.parameters_ok (c : QueueConfigurationUpdate) :
    c.parameters = .ok (boundParameters c.visibilityTimeoutSeconds c.maxDeliveryAttempts
      c.defaultMessageTtlSeconds) := by
  obtain ⟨visibility, attempts, ttl, hv, ha, ht⟩ := c
  rw [Option.all_eq_true] at hv ha ht
  have hvisibility : ∀ text, visibility.mapM (expectI32 text) = .ok _ := fun text =>
    option_mapM_ok fun value hvalue => expectI32_ok
      ((visibilityTimeoutInRange_iff.mp (hv value hvalue)).2.trans (by decide))
  have hattempts : ∀ text, attempts.mapM (expectI16 text) = .ok _ := fun text =>
    option_mapM_ok fun value hvalue => expectI16_ok
      (maxDeliveryAttemptsInRange_iff.mp (ha value hvalue)).2
  have httl : ∀ text, ttl.mapM (expectI32 text) = .ok _ := fun text =>
    option_mapM_ok fun value hvalue => expectI32_ok (ttlInRange_iff.mp (ht value hvalue)).2
  simp only [QueueConfigurationUpdate.parameters, hvisibility, hattempts, httl]
  rfl

/-- The details say what the row says. -/
structure QueueDetails.Describes (details : QueueDetails) (row : QueueRow) : Prop where
  id : details.id = row.id
  name : details.name = row.name
  visibility : (details.visibilityTimeoutSeconds.toNat : Int) = row.visibilityTimeoutSeconds
  attempts : (details.maxDeliveryAttempts.toNat : Int) = row.maxDeliveryAttempts
  ttl : (details.defaultMessageTtlSeconds.toNat : Int) = row.defaultMessageTtlSeconds

/-- A row that satisfies its constraints is read without loss. -/
theorem queueDetailsFromRow_describes {row : QueueRow} (hchecked : Checked queueChecks row) :
    ∃ details, queueDetailsFromRow row = .ok details ∧ details.Describes row := by
  obtain ⟨-, -, hv, ha, ht, -⟩ := QueueRow.checked_iff.mp hchecked
  obtain ⟨id, name, visibility, attempts, ttl, createdAt, updatedAt⟩ := row
  simp only at hv ha ht
  lift visibility to Nat using by omega
  lift attempts to Nat using by omega
  lift ttl to Nat using by omega
  refine ⟨⟨id, name, .ofNat visibility, .ofNat attempts, .ofNat ttl⟩, ?_, ?_⟩
  · simp only [queueDetailsFromRow, tryFromSigned, Int.natCast_nonneg, if_true, Int.toNat_natCast,
      bind, Except.bind, pure, Except.pure]
  · have hv' : visibility < 2 ^ 32 := by omega
    have ha' : attempts < 2 ^ 16 := by omega
    have ht' : ttl < 2 ^ 32 := by omega
    exact ⟨rfl, rfl, congrArg Int.ofNat (UInt32.toNat_ofNat_of_lt' hv'),
      congrArg Int.ofNat (UInt16.toNat_ofNat_of_lt' ha'),
      congrArg Int.ofNat (UInt32.toNat_ofNat_of_lt' ht')⟩

theorem QueueDetails.Describes.unique {row : QueueRow} {d e : QueueDetails}
    (hd : d.Describes row) (he : e.Describes row) : d = e := by
  obtain ⟨id, name, v, a, t⟩ := d
  obtain ⟨id', name', v', a', t'⟩ := e
  obtain rfl : id = id' := hd.id.trans he.id.symm
  obtain rfl : name = name' := hd.name.trans he.name.symm
  obtain rfl : v = v' := UInt32.toNat_inj.mp (Int.ofNat.inj (hd.visibility.trans he.visibility.symm))
  obtain rfl : a = a' := UInt16.toNat_inj.mp (Int.ofNat.inj (hd.attempts.trans he.attempts.symm))
  obtain rfl : t = t' := UInt32.toNat_inj.mp (Int.ofNat.inj (hd.ttl.trans he.ttl.symm))
  rfl

/-- The row that `create_queue` inserts for accepted arguments. -/
theorem Queue.new_row {id : Uuid} {name : String} {visibility : Option UInt32}
    {attempts : Option UInt16} {ttl : Option UInt32} {queue : Queue}
    (h : Queue.new id name visibility attempts ttl = .ok queue) (now : Int) :
    queue.row now = .ok (proposedRow id name visibility attempts ttl now) := by
  obtain ⟨hid, hname, hsettings⟩ := Queue.new_eq_ok.mp h
  obtain ⟨hv, ha, ht⟩ := QueueSettings.new_eq_ok.mp hsettings
  rw [Queue.row_ok, hid, QueueName.parse_asStr hname, hv, ha, ht]
  rfl

theorem Queue.row_checked {queue : Queue} {row : QueueRow} {now : Int}
    (h : queue.row now = .ok row) : Checked queueChecks row := by
  rw [Queue.row_ok] at h
  obtain rfl := Except.ok.inj h
  refine proposedRow_checked.mpr ⟨?_, queue.settings.visibility_valid,
    queue.settings.attempts_valid, queue.settings.ttl_valid⟩
  exact QueueName.parse_iff.mpr (validateQueueName_iff.mp queue.name.valid)

/-- A queue that was accepted and stored reads back as it was. -/
theorem Queue.stored_details {queue : Queue} {row : QueueRow} {now : Int}
    (h : queue.row now = .ok row) : queueDetailsFromRow row = .ok queue.details := by
  obtain ⟨details, hdetails, hdescribes⟩ := queueDetailsFromRow_describes (Queue.row_checked h)
  rw [Queue.row_ok] at h
  obtain rfl := Except.ok.inj h
  exact hdetails.trans (congrArg Except.ok (hdescribes.unique ⟨rfl, rfl, rfl, rfl, rfl⟩))

/-! ## Updates -/

/-- A queue with the shortest name and the default settings. -/
def smallestRow : QueueRow := proposedRow 0 "a" none none none 0

theorem smallestRow_checked : Checked queueChecks smallestRow := by decide +kernel

theorem inRange_iff_getD {α : Type} {inRange : α → Bool} {toInt : α → Int} {low high : Int}
    (hrange : ∀ value, inRange value ↔ low ≤ toInt value ∧ toInt value ≤ high)
    (hnonempty : low ≤ high) (o : Option α) :
    o.all inRange ↔ ∀ stored : Int, low ≤ stored ∧ stored ≤ high →
      low ≤ (o.map toInt).getD stored ∧ (o.map toInt).getD stored ≤ high := by
  cases o with
  | none => simp
  | some value =>
    show inRange value = true ↔ ∀ stored : Int, _ → low ≤ toInt value ∧ toInt value ≤ high
    rw [hrange]
    exact ⟨fun h _ _ => h, fun h => h low ⟨le_refl low, hnonempty⟩⟩

theorem QueueConfigurationUpdate.new_ok {visibility : Option UInt32} {attempts : Option UInt16}
    {ttl : Option UInt32} :
    (∃ c, QueueConfigurationUpdate.new visibility attempts ttl = .ok c) ↔
      visibility.all visibilityTimeoutInRange ∧ attempts.all maxDeliveryAttemptsInRange ∧
        ttl.all ttlInRange := by
  rw [QueueConfigurationUpdate.new]
  split_ifs with hv ha ht
  · exact ⟨fun _ => ⟨hv, ha, ht⟩, fun _ => ⟨_, rfl⟩⟩
  all_goals simp [*]

/-- The row of `update_queue` for an update of these settings. -/
def configuredRow (row : QueueRow) (now : Int) (visibility : Option UInt32)
    (attempts : Option UInt16) (ttl : Option UInt32) : QueueRow :=
  let (visibilityTimeoutSeconds, maxDeliveryAttempts, defaultMessageTtlSeconds) :=
    boundParameters visibility attempts ttl
  row.configure now visibilityTimeoutSeconds maxDeliveryAttempts defaultMessageTtlSeconds

/-- **`QueueConfigurationUpdate::new` accepts exactly the updates that break no constraint of any
    row**: what is left is that the update does not happen before the queue was created. -/
theorem QueueConfigurationUpdate.new_iff (visibility : Option UInt32) (attempts : Option UInt16)
    (ttl : Option UInt32) :
    (∃ c, QueueConfigurationUpdate.new visibility attempts ttl = .ok c) ↔
      ∀ row, Checked queueChecks row → ∀ now,
        (Checked queueChecks (configuredRow row now visibility attempts ttl) ↔
          row.createdAt ≤ now) := by
  rw [new_ok, inRange_iff_getD (fun _ => visibilityTimeoutInRange_iff) (by decide),
    inRange_iff_getD (fun _ => maxDeliveryAttemptsInRange_iff) (by decide),
    inRange_iff_getD (fun _ => ttlInRange_iff) (by decide)]
  constructor
  · rintro ⟨hvisibility, hattempts, httl⟩ row hrow now
    obtain ⟨hlength, hformat, hv, ha, ht, -⟩ := QueueRow.checked_iff.mp hrow
    constructor
    · intro h
      exact (QueueRow.checked_iff.mp h).2.2.2.2.2
    · intro hnow
      exact QueueRow.checked_iff.mpr
        ⟨hlength, hformat, hvisibility _ hv, hattempts _ ha, httl _ ht, hnow⟩
  · intro h
    -- a row that was created at 0 and is updated then
    have hupdated : ∀ row, Checked queueChecks row → row.createdAt = 0 →
        Checked queueChecks (configuredRow row 0 visibility attempts ttl) :=
      fun row hrow hcreated => (h row hrow 0).mpr (by omega)
    have hstored : ∀ {v a t : Int}, 1 ≤ v ∧ v ≤ 21600 → 1 ≤ a ∧ a ≤ 100 → 1 ≤ t ∧ t ≤ 2592000 →
        Checked queueChecks { smallestRow with
          visibilityTimeoutSeconds := v, maxDeliveryAttempts := a,
          defaultMessageTtlSeconds := t } := by
      intro v a t hv ha ht
      obtain ⟨hlength, hformat, -, -, -, htime⟩ := QueueRow.checked_iff.mp smallestRow_checked
      exact QueueRow.checked_iff.mpr ⟨hlength, hformat, hv, ha, ht, htime⟩
    have hone : (1 : Int) ≤ 1 ∧ (1 : Int) ≤ 100 := by decide
    refine ⟨fun v hv => ?_, fun a ha => ?_, fun t ht => ?_⟩
    · exact (QueueRow.checked_iff.mp
        (hupdated _ (hstored hv hone (t := 1) (by decide)) rfl)).2.2.1
    · exact (QueueRow.checked_iff.mp
        (hupdated _ (hstored (v := 1) (by decide) ha (t := 1) (by decide)) rfl)).2.2.2.1
    · exact (QueueRow.checked_iff.mp
        (hupdated _ (hstored (v := 1) (by decide) hone ht) rfl)).2.2.2.2.1

/-! ## Messages -/

/-- The row of a message whose lifetime is in the range of a TTL. -/
theorem Message.row_checked {message : Message} {queueId : Uuid} {ttl : UInt32} {order now : Int}
    (h : ttlInRange ttl) : Checked queueMessageChecks (message.row queueId ttl order now) := by
  obtain ⟨hlow, hhigh⟩ := ttlInRange_iff.mp h
  have hpriority : 1 ≤ message.priority.rank ∧ message.priority.rank ≤ 3 := by
    cases message.priority <;> decide
  have hexpires : now < now + seconds ttl.toNat ∧ now + seconds ttl.toNat ≤ now + days 30 := by
    simp only [seconds, days]
    omega
  exact QueueMessage.checked_iff.mpr ⟨hpriority, le_refl 0, hexpires,
    Or.inl ⟨rfl, rfl, rfl, rfl⟩, le_refl now, by simp [Message.row]⟩

/-- The TTL that `enqueue_message` ends up with is in range, whoever chose it. -/
theorem effectiveTtl_inRange {command : EnqueueMessageCommand} {id : Uuid} {row : QueueRow}
    {details queue : QueueDetails} {message : Message} {ttl : UInt32}
    (hrow : Checked queueChecks row) (hdetails : details.Describes row)
    (h : command.effective id (.ok (some details)) = .ok (message, queue, ttl)) :
    ttlInRange ttl := by
  obtain ⟨m, -, hok⟩ := bind_eq_ok.mp h
  simp only [pure, Except.pure, Except.ok.injEq, Prod.mk.injEq] at hok
  obtain ⟨rfl, rfl, rfl⟩ := hok
  cases hown : m.ttlSeconds with
  | none =>
    rw [Option.getD_none, ttlInRange_iff, hdetails.ttl]
    exact (QueueRow.checked_iff.mp hrow).2.2.2.2.1
  | some own =>
    have hvalid := m.ttl_valid
    rw [hown] at hvalid
    exact hvalid

/-! ## Agreement -/

/-- **Whatever the domain types accept the tables accept, and the other way round.** -/
theorem validation_agrees :
    (∀ value, (∃ name, QueueName.parse value = .ok name) ↔
      (1 ≤ value.utf8ByteSize ∧ value.utf8ByteSize ≤ 64) ∧ value.toList ∈ nameFormat) ∧
    (∀ name, matchesNameFormat name ↔ name.toList ∈ nameFormat) ∧
    (∀ id name visibility attempts ttl now,
      (∃ queue, Queue.new id name visibility attempts ttl = .ok queue) ↔
        Checked queueChecks (proposedRow id name visibility attempts ttl now)) ∧
    (∀ id name visibility attempts ttl queue now,
      Queue.new id name visibility attempts ttl = .ok queue →
        queue.row now = .ok (proposedRow id name visibility attempts ttl now) ∧
          queueDetailsFromRow (proposedRow id name visibility attempts ttl now) =
            .ok queue.details) ∧
    (∀ visibility attempts ttl,
      (∃ c, QueueConfigurationUpdate.new visibility attempts ttl = .ok c) ↔
        ∀ row, Checked queueChecks row → ∀ now,
          (Checked queueChecks (configuredRow row now visibility attempts ttl) ↔
            row.createdAt ≤ now)) ∧
    (∀ c : QueueConfigurationUpdate, c.parameters = .ok (boundParameters
      c.visibilityTimeoutSeconds c.maxDeliveryAttempts c.defaultMessageTtlSeconds)) ∧
    (∀ row, Checked queueChecks row →
      ∃ details, queueDetailsFromRow row = .ok details ∧ details.Describes row) ∧
    ∀ row details, Checked queueChecks row → queueDetailsFromRow row = .ok details →
      ∀ (command : EnqueueMessageCommand) id message queue ttl,
        command.effective id (.ok (some details)) = .ok (message, queue, ttl) →
          ∀ queueId order now, Checked queueMessageChecks (message.row queueId ttl order now) := by
  refine ⟨fun _ => QueueName.parse_iff, fun _ => matchesNameFormat_iff, Queue.new_iff, ?_,
    QueueConfigurationUpdate.new_iff, QueueConfigurationUpdate.parameters_ok,
    fun _ => queueDetailsFromRow_describes, ?_⟩
  · intro id name visibility attempts ttl queue now hqueue
    have hrow := Queue.new_row hqueue now
    exact ⟨hrow, Queue.stored_details hrow⟩
  · intro row details hrow hdetails command id message queue ttl heffective queueId order now
    obtain ⟨read, hread, hdescribes⟩ := queueDetailsFromRow_describes hrow
    obtain rfl := Except.ok.inj (hdetails.symm.trans hread)
    exact Message.row_checked (effectiveTtl_inRange hrow hdescribes heffective)

/-- A name of 64 bytes. -/
def longestName : String := "orders.eu-west-1.retries_0123456789.0123456789.0123456789.012345"

/-- The longest name and the largest settings are accepted on both sides, and so is a message
    that lives as long as the queue lets it. -/
theorem validation_agrees_longestName :
    ∃ queue, Queue.new 7 longestName (some 21600) (some 100) (some 2592000) = .ok queue ∧
      Checked queueMessageChecks
        (Message.row ⟨1, "", .high, none, rfl⟩ 7 2592000 1 0) := by
  obtain ⟨-, -, hnew, hrow, -, -, -, hmessage⟩ := validation_agrees
  have hchecked : Checked queueChecks
      (proposedRow 7 longestName (some 21600) (some 100) (some 2592000) 0) := by decide +kernel
  obtain ⟨queue, hqueue⟩ := (hnew 7 longestName (some 21600) (some 100) (some 2592000) 0).mpr
    hchecked
  obtain ⟨-, hdetails⟩ := hrow _ _ _ _ _ _ 0 hqueue
  obtain ⟨-, -, hsettings⟩ := Queue.new_eq_ok.mp hqueue
  have httl : queue.details.defaultMessageTtlSeconds = 2592000 :=
    (QueueSettings.new_eq_ok.mp hsettings).2.2
  refine ⟨queue, hqueue, ?_⟩
  refine hmessage _ _ hchecked hdetails ⟨7, "", "HIGH", none⟩ 1 _ queue.details 2592000 ?_ 7 1 0
  rw [← httl]
  rfl

end Retsu
