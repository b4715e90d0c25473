import Mathlib.Algebra.Ring.Nat

/-!
# Byte buffers with bounds checks, and little-endian numbers

A buffer is a list of bytes. `readBytes` and `writeBytes` answer `none` for an access outside
of it and `subtractSize` for a size that would wrap, so a function that returns `some` has stayed
inside. An array of fixed size carries its size in its type (`FixedBytes`).

Little-endian numbers are read with `leValue` and written with `leBytes`;
`incrementSequence` and `sequenceIsNewer` are the in-place counter operations on them.
-/

namespace Memory

/-- An array of exactly `n` bytes. -/
structure FixedBytes (n : Nat) where
  toList : List UInt8
  length_toList : toList.length = n
deriving DecidableEq

theorem FixedBytes.ext_iff' {n : Nat} {a b : FixedBytes n} : a = b ↔ a.toList = b.toList := by
  cases a; cases b; simp

/-- The bytes of an array of six. -/
theorem FixedBytes.eq_six (b : FixedBytes 6) :
    ∃ b₀ b₁ b₂ b₃ b₄ b₅, b.toList = [b₀, b₁, b₂, b₃, b₄, b₅] := by
  match b with
  | ⟨[b₀, b₁, b₂, b₃, b₄, b₅], _⟩ => exact ⟨b₀, b₁, b₂, b₃, b₄, b₅, rfl⟩

/-- `n` zero bytes. -/
def FixedBytes.zero (n : Nat) : FixedBytes n :=
  ⟨List.replicate n 0, List.length_replicate⟩

/-- Overwrite the bytes from `off` on; `none` when they do not fit. -/
def FixedBytes.write {n : Nat} (b : FixedBytes n) (off : Nat) (bs : List UInt8) :
    Option (FixedBytes n) :=
  if h : off + bs.length ≤ n then
    some ⟨b.toList.take off ++ bs ++ b.toList.drop (off + bs.length), by
      have := b.length_toList
      simp only [List.length_append, List.length_take, List.length_drop]
      omega⟩
  else none

/-- A write inside the bytes replaces a part of them. -/
theorem FixedBytes.write_of_le {n : Nat} (b : FixedBytes n) {off : Nat} {bs : List UInt8}
    (h : off + bs.length ≤ n) :
    ∃ b', b.write off bs = some b' ∧
      b'.toList = b.toList.take off ++ bs ++ b.toList.drop (off + bs.length) := by
  rw [FixedBytes.write, dif_pos h]
  exact ⟨_, rfl, rfl⟩

/-- Or a mask into the byte at `i`; `none` when there is no such byte. -/
def FixedBytes.orByte {n : Nat} (b : FixedBytes n) (i : Nat) (mask : UInt8) :
    Option (FixedBytes n) :=
  if i < n then
    some ⟨b.toList.set i (b.toList.getD i 0 ||| mask), by
      rw [List.length_set, b.length_toList]⟩
  else none

/-- Copy bytes over the start of the array; what does not fit is dropped. -/
def FixedBytes.copy {n : Nat} (b : FixedBytes n) (bs : List UInt8) : FixedBytes n :=
  ⟨(bs ++ b.toList.drop bs.length).take n, by
    have := b.length_toList
    simp only [List.length_take, List.length_append, List.length_drop]
    omega⟩

/-- Overwrite the byte at `i`, if there is one. -/
def FixedBytes.set {n : Nat} (b : FixedBytes n) (i : Nat) (v : UInt8) : FixedBytes n :=
  ⟨b.toList.set i v, by rw [List.length_set, b.length_toList]⟩

/-! ## Sizes -/

/-- A subtraction of sizes; `none` when it would wrap. -/
def subtractSize (a b : Nat) : Option Nat := if b ≤ a then some (a - b) else none

theorem subtractSize_of_le {a b : Nat} (h : b ≤ a) : subtractSize a b = some (a - b) := by
  rw [subtractSize, if_pos h]

/-! ## Reading and writing -/

/-- The `n` bytes from `off` on. -/
def slice (mem : List UInt8) (off n : Nat) : List UInt8 := (mem.drop off).take n

/-- A slice inside the memory has its length. -/
theorem length_slice {mem : List UInt8} {off n : Nat} (h : off + n ≤ mem.length) :
    (slice mem off n).length = n := by
  rw [slice, List.length_take, List.length_drop]
  omega

/-- Copy `n` bytes out of a buffer. -/
def readBytes (mem : List UInt8) (off n : Nat) : Option (FixedBytes n) :=
  if h : off + n ≤ mem.length then some ⟨slice mem off n, length_slice h⟩ else none

/-- Copy bytes into a buffer. -/
def writeBytes (mem : List UInt8) (off : Nat) (bs : List UInt8) : Option (List UInt8) :=
  if off + bs.length ≤ mem.length then
    some (mem.take off ++ bs ++ mem.drop (off + bs.length))
  else none

/-- A read inside the memory succeeds. -/
theorem readBytes_of_le {mem : List UInt8} {off n : Nat} (h : off + n ≤ mem.length) :
    readBytes mem off n = some ⟨slice mem off n, length_slice h⟩ := by
  rw [readBytes, dif_pos h]

/-- A read that succeeds was inside. -/
theorem readBytes_eq_some {mem : List UInt8} {off n : Nat} {b : FixedBytes n}
    (h : readBytes mem off n = some b) : off + n ≤ mem.length ∧ b.toList = slice mem off n := by
  unfold readBytes at h
  split at h
  · next hle =>
    rw [Option.some.injEq] at h
    exact ⟨hle, by rw [← h]⟩
  · cases h

/-- A write inside the memory succeeds. -/
theorem writeBytes_of_le {mem bs : List UInt8} {off : Nat} (h : off + bs.length ≤ mem.length) :
    writeBytes mem off bs = some (mem.take off ++ bs ++ mem.drop (off + bs.length)) := by
  rw [writeBytes, if_pos h]

/-- A write that succeeds was inside. -/
theorem writeBytes_eq_some {mem mem' bs : List UInt8} {off : Nat}
    (h : writeBytes mem off bs = some mem') :
    off + bs.length ≤ mem.length ∧ mem' = mem.take off ++ bs ++ mem.drop (off + bs.length) := by
  unfold writeBytes at h
  split at h
  · next hle => exact ⟨hle, (Option.some.inj h).symm⟩
  · cases h

/-- A write keeps the size of the buffer. -/
theorem length_writeBytes {mem mem' bs : List UInt8} {off : Nat}
    (h : writeBytes mem off bs = some mem') : mem'.length = mem.length := by
  obtain ⟨hle, rfl⟩ := writeBytes_eq_some h
  simp only [List.length_append, List.length_take, List.length_drop]
  omega

/-- After a write the buffer from `off` on starts with the written bytes. -/
theorem drop_writeBytes {mem mem' bs : List UInt8} {off : Nat}
    (h : writeBytes mem off bs = some mem') :
    mem'.drop off = bs ++ mem.drop (off + bs.length) := by
  obtain ⟨hle, rfl⟩ := writeBytes_eq_some h
  have hlen : (mem.take off).length = off := by
    rw [List.length_take]
    omega
  rw [List.append_assoc, List.drop_append, List.drop_eq_nil_of_le (by omega), hlen,
    Nat.sub_self, List.drop_zero, List.nil_append]

/-- Bytes before the written ones are not changed. -/
theorem take_writeBytes {mem mem' bs : List UInt8} {off : Nat}
    (h : writeBytes mem off bs = some mem') : mem'.take off = mem.take off := by
  obtain ⟨hle, rfl⟩ := writeBytes_eq_some h
  have hlen : (mem.take off).length = off := by
    rw [List.length_take]
    omega
  rw [List.append_assoc, List.take_append, hlen, Nat.sub_self, List.take_zero, List.append_nil,
    List.take_take, Nat.min_self]

/-- Two writes, the second right behind the first, are one. -/
theorem writeBytes_append (mem a b : List UInt8) (off : Nat) :
    ((writeBytes mem off a).bind fun mem => writeBytes mem (off + a.length) b) =
      writeBytes mem off (a ++ b) := by
  by_cases h : off + (a ++ b).length ≤ mem.length
  · rw [List.length_append] at h
    have ha : off + a.length ≤ mem.length := by omega
    rw [writeBytes_of_le ha, Option.bind_some,
      writeBytes_of_le (by
        simp only [List.length_append, List.length_take, List.length_drop]
        omega),
      writeBytes_of_le (by rw [List.length_append]; omega)]
    have hpre : (mem.take off ++ a).length = off + a.length := by
      rw [List.length_append, List.length_take]
      omega
    rw [List.take_left' hpre, List.drop_append, hpre, List.drop_eq_nil_of_le (by omega),
      List.nil_append, List.drop_drop, List.length_append]
    simp only [List.append_assoc]
    rw [show off + a.length + (off + a.length + b.length - (off + a.length)) =
      off + (a.length + b.length) by omega]
  · rw [writeBytes, writeBytes, if_neg h]
    rw [List.length_append] at h
    split
    · rw [Option.bind_some, writeBytes, if_neg]
      simp only [List.length_append, List.length_take, List.length_drop]
      omega
    · rfl

/-- What a string of known length stands in front of. -/
theorem drop_of_append {mem a b : List UInt8} {n : Nat} (h : mem = a ++ b) (hn : a.length = n) :
    mem.drop n = b := by
  rw [h, List.drop_left' hn]

/-- An array that stands in the buffer is read back. -/
theorem readBytes_of_drop {n off : Nat} {mem rest : List UInt8} {b : FixedBytes n} (hn : 0 < n)
    (h : mem.drop off = b.toList ++ rest) : readBytes mem off n = some b := by
  have hb := b.length_toList
  have hlen : mem.length - off = n + rest.length := by
    rw [← List.length_drop, h, List.length_append, hb]
  rw [readBytes_of_le (by omega), Option.some.injEq, FixedBytes.ext_iff']
  show (mem.drop off).take n = b.toList
  rw [h, List.take_left' hb]

theorem slice_of_drop {mem a rest : List UInt8} {off n : Nat} (h : mem.drop off = a ++ rest)
    (hn : a.length = n) : slice mem off n = a := by
  rw [slice, h, List.take_left' hn]

/-- Bytes that follow one another. -/
theorem slice_append (mem : List UInt8) (off m n : Nat) :
    slice mem off (m + n) = slice mem off m ++ slice mem (off + m) n := by
  rw [slice, slice, slice, List.take_add, List.drop_drop]

/-- From where it was made on, a write is read back in front of what follows it. -/
theorem slice_writeBytes {mem mem' bs : List UInt8} {off n : Nat}
    (h : writeBytes mem off bs = some mem') (hn : bs.length ≤ n) :
    slice mem' off n = bs ++ slice mem (off + bs.length) (n - bs.length) := by
  rw [slice, drop_writeBytes h, List.take_append, List.take_of_length_le hn, slice]

/-! ## Little-endian numbers -/

/-- The number that little-endian bytes stand for. -/
def leValue : List UInt8 → Nat
  | [] => 0
  | b :: bs => b.toNat + 256 * leValue bs

/-- The lowest `n` little-endian bytes of a number. -/
def leBytes : Nat → Nat → List UInt8
  | 0, _ => []
  | n + 1, v => UInt8.ofNat v :: leBytes n (v / 256)

@[simp] theorem length_leBytes (n v : Nat) : (leBytes n v).length = n := by
  induction n generalizing v with
  | zero => rfl
  | succ n ih => rw [leBytes, List.length_cons, ih]

/-- The value is below what the bytes can tell. -/
theorem leValue_lt (bs : List UInt8) : leValue bs < 256 ^ bs.length := by
  induction bs with
  | nil => decide
  | cons b bs ih =>
    have hb := UInt8.toNat_lt b
    rw [leValue, List.length_cons, Nat.pow_succ]
    omega

/-- Reading a number back gives it modulo the width. -/
theorem leValue_leBytes (n v : Nat) : leValue (leBytes n v) = v % 256 ^ n := by
  induction n generalizing v with
  | zero => rw [leBytes, leValue, Nat.pow_zero, Nat.mod_one]
  | succ n ih =>
    have hb : (UInt8.ofNat v).toNat = v % 256 := UInt8.toNat_ofNat'
    rw [leBytes, leValue, ih, hb, Nat.pow_succ', Nat.mod_mul]

/-- `deserialize_le16` -/
def deserializeLe16 (mem : List UInt8) (off : Nat) : Option UInt16 :=
  (readBytes mem off 2).map fun b => UInt16.ofNat (leValue b.toList)

/-- `deserialize_le32` inside of an array. -/
def FixedBytes.le32 {n : Nat} (b : FixedBytes n) (off : Nat) : UInt32 :=
  UInt32.ofNat (leValue (slice b.toList off 4))

/-- `serialize_le16` -/
def serializeLe16 (value : UInt16) : List UInt8 := leBytes 2 value.toNat

/-- `serialize_le32` -/
def serializeLe32 (value : UInt32) : List UInt8 := leBytes 4 value.toNat

@[simp] theorem length_serializeLe16 (v : UInt16) : (serializeLe16 v).length = 2 :=
  length_leBytes 2 _

theorem deserializeLe16_of_le {mem : List UInt8} {off : Nat} (h : off + 2 ≤ mem.length) :
    deserializeLe16 mem off = some (UInt16.ofNat (leValue (slice mem off 2))) := by
  rw [deserializeLe16, readBytes_of_le h, Option.map_some]

/-- A 16-bit number is read back as it was written. -/
theorem ofNat_leValue_serializeLe16 (v : UInt16) :
    UInt16.ofNat (leValue (serializeLe16 v)) = v := by
  rw [serializeLe16, leValue_leBytes, Nat.mod_eq_of_lt (by have := UInt16.toNat_lt v; omega),
    UInt16.ofNat_toNat]

/-- What is written with `serialize_le16` is read back. -/
theorem deserializeLe16_serializeLe16 {mem rest : List UInt8} {off : Nat} {v : UInt16}
    (h : mem.drop off = serializeLe16 v ++ rest) : deserializeLe16 mem off = some v := by
  have hlen : off + 2 ≤ mem.length := by
    have := congrArg List.length h
    rw [List.length_drop, List.length_append, length_serializeLe16] at this
    omega
  rw [deserializeLe16_of_le hlen, slice, h, List.take_append, length_serializeLe16, Nat.sub_self,
    List.take_zero, List.append_nil, List.take_of_length_le (Nat.le_of_eq (length_serializeLe16 v)),
    ofNat_leValue_serializeLe16]

/-! ## Little-endian counters -/

/-- The number of leading bytes with the value 255: where a carry ends. -/
def carryEnd : List UInt8 → Nat
  | [] => 0
  | b :: bs => if b = 0xff then carryEnd bs + 1 else 0

/-- `increment_sequence`: clear the bytes before the carry's end and increment the one at it;
`none` when every byte is 255. -/
def incrementSequence (sequence : List UInt8) : Option (List UInt8) :=
  let carry := carryEnd sequence
  if carry = sequence.length then none
  else some (List.replicate carry 0 ++ (sequence.getD carry 0 + 1) :: sequence.drop (carry + 1))

/-- `increment_sequence` on an array. -/
def FixedBytes.increment {n : Nat} (b : FixedBytes n) : Option (FixedBytes n) :=
  (incrementSequence b.toList).map b.copy

/-- The loop of `sequence_is_newer`, from byte `i - 1` down to byte 0. -/
def sequenceIsNewerFrom (sequence previous : List UInt8) : Nat → Bool
  | 0 => false
  | i + 1 =>
    if sequence.getD i 0 ≠ previous.getD i 0 then previous.getD i 0 < sequence.getD i 0
    else sequenceIsNewerFrom sequence previous i

/-- `sequence_is_newer` -/
def sequenceIsNewer (sequence previous : List UInt8) (size : Nat) : Bool :=
  sequenceIsNewerFrom sequence previous size

/-- A carry goes on with the next byte. -/
theorem incrementSequence_cons_max (bs : List UInt8) :
    incrementSequence (0xff :: bs) = (incrementSequence bs).map (0 :: ·) := by
  unfold incrementSequence
  simp only [carryEnd, if_pos, List.length_cons, Nat.add_right_cancel_iff]
  split
  · rfl
  · simp only [Option.map_some, List.replicate_succ, List.cons_append, List.getD_cons_succ,
      List.drop_succ_cons]

/-- Without a carry the first byte is incremented. -/
theorem incrementSequence_cons {b : UInt8} (hb : b ≠ 0xff) (bs : List UInt8) :
    incrementSequence (b :: bs) = some ((b + 1) :: bs) := by
  unfold incrementSequence
  simp [carryEnd, hb]

/-- The increment keeps the size of the counter. -/
theorem length_incrementSequence {bs bs' : List UInt8} (h : incrementSequence bs = some bs') :
    bs'.length = bs.length := by
  induction bs generalizing bs' with
  | nil => simp [incrementSequence, carryEnd] at h
  | cons b bs ih =>
    by_cases hb : b = 0xff
    · subst hb
      rw [incrementSequence_cons_max] at h
      obtain ⟨cs, hcs, rfl⟩ := Option.map_eq_some_iff.mp h
      rw [List.length_cons, List.length_cons, ih hcs]
    · rw [incrementSequence_cons hb, Option.some.injEq] at h
      rw [← h, List.length_cons, List.length_cons]

/-- **The increment adds one.** -/
theorem leValue_incrementSequence {bs bs' : List UInt8} (h : incrementSequence bs = some bs') :
    leValue bs' = leValue bs + 1 := by
  induction bs generalizing bs' with
  | nil => simp [incrementSequence, carryEnd] at h
  | cons b bs ih =>
    by_cases hb : b = 0xff
    · subst hb
      rw [incrementSequence_cons_max] at h
      obtain ⟨cs, hcs, rfl⟩ := Option.map_eq_some_iff.mp h
      rw [leValue, leValue, ih hcs]
      simp only [UInt8.reduceToNat]
      omega
    · rw [incrementSequence_cons hb, Option.some.injEq] at h
      have hlt : b.toNat + 1 < 256 := by
        have := UInt8.toNat_lt b
        have hne : b.toNat ≠ 255 := fun he => hb (UInt8.toNat_inj.mp he)
        omega
      rw [← h, leValue, leValue, UInt8.toNat_add, UInt8.toNat_one, Nat.mod_eq_of_lt hlt]
      omega

/-- The increment fails only at the maximum. -/
theorem incrementSequence_isSome {bs : List UInt8} (h : leValue bs + 1 < 256 ^ bs.length) :
    ∃ bs', incrementSequence bs = some bs' := by
  induction bs with
  | nil => simp [leValue] at h
  | cons b bs ih =>
    by_cases hb : b = 0xff
    · subst hb
      rw [leValue, List.length_cons, Nat.pow_succ] at h
      simp only [UInt8.reduceToNat] at h
      obtain ⟨cs, hcs⟩ := ih (by omega)
      exact ⟨0 :: cs, by rw [incrementSequence_cons_max, hcs, Option.map_some]⟩
    · exact ⟨_, incrementSequence_cons hb bs⟩

/-- The value of the lowest `i` bytes, and the byte above them. -/
theorem leValue_take_succ {bs : List UInt8} {i : Nat} (h : i < bs.length) :
    leValue (bs.take (i + 1)) = leValue (bs.take i) + 256 ^ i * (bs.getD i 0).toNat := by
  induction bs generalizing i with
  | nil => exact absurd h (Nat.not_lt_zero i)
  | cons b bs ih =>
    cases i with
    | zero => simp [leValue]
    | succ i =>
      have hi : i < bs.length := by rw [List.length_cons] at h; omega
      rw [List.take_succ_cons, List.take_succ_cons, leValue, leValue, ih hi, List.getD_cons_succ,
        Nat.pow_succ', Nat.mul_add, ← Nat.mul_assoc, Nat.add_assoc]

/-- The comparison is that of the numbers. -/
theorem sequenceIsNewerFrom_iff {s p : List UInt8} {i : Nat} (hs : i ≤ s.length)
    (hp : i ≤ p.length) :
    sequenceIsNewerFrom s p i = true ↔ leValue (p.take i) < leValue (s.take i) := by
  induction i with
  | zero => simp [sequenceIsNewerFrom, leValue]
  | succ i ih =>
    rw [sequenceIsNewerFrom, leValue_take_succ hs, leValue_take_succ hp]
    have hlp : leValue (p.take i) < 256 ^ i := by
      have := leValue_lt (p.take i)
      rwa [List.length_take, Nat.min_eq_left (by omega)] at this
    have hls : leValue (s.take i) < 256 ^ i := by
      have := leValue_lt (s.take i)
      rwa [List.length_take, Nat.min_eq_left (by omega)] at this
    split
    · next hne =>
      rw [decide_eq_true_iff, UInt8.lt_iff_toNat_lt]
      have hne' : (s.getD i 0).toNat ≠ (p.getD i 0).toNat :=
        fun he => hne (UInt8.toNat_inj.mp he)
      constructor
      · intro hlt
        have hmul := Nat.mul_le_mul_left (256 ^ i) (Nat.succ_le_of_lt hlt)
        rw [Nat.mul_succ] at hmul
        omega
      · intro hlt
        rcases Nat.lt_or_ge (p.getD i 0).toNat (s.getD i 0).toNat with h | h
        · exact h
        · have hmul := Nat.mul_le_mul_left (256 ^ i)
            (Nat.succ_le_of_lt (Nat.lt_of_le_of_ne h hne'))
          rw [Nat.mul_succ] at hmul
          omega
    · next heq =>
      have heq' : s.getD i 0 = p.getD i 0 := Decidable.not_not.mp heq
      rw [ih (by omega) (by omega), heq']
      omega

/-- **The byte-wise comparison is the comparison of the numbers.** -/
theorem sequenceIsNewer_iff {s p : List UInt8} {n : Nat} (hs : s.length = n) (hp : p.length = n) :
    sequenceIsNewer s p n = true ↔ leValue p < leValue s := by
  rw [sequenceIsNewer, sequenceIsNewerFrom_iff (by omega) (by omega),
    List.take_of_length_le (by omega), List.take_of_length_le (by omega)]

end Memory
