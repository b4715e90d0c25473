import U80211.Lib.Lts
import U80211.RingBuffer

/-!
# The ring buffer is a queue of bytes

The bytes between `read` and `write` stand at the positions of the data area that these counters
have modulo its size, whatever the size is.

* `write_spec`, `read_spec`, `peek_spec`, `truncate_spec`, `remove_spec`
* `ringbuffer_refines_queue`: **every sequence of calls is one of a bounded queue of bytes**
-/

namespace U80211

open Memory

/-! ## Positions in the data area -/

/-- Before the end of the data area is reached. -/
theorem circular_of_lt {n i size : Nat} (h : i < size - n % size) :
    (n + i) % size = n % size + i := by
  rw [Nat.add_mod, Nat.add_mod_mod, Nat.mod_eq_of_lt (by omega)]

/-- From the start of the data area on again. -/
theorem circular_of_ge {n i size : Nat} (h : size - n % size ≤ i) (hi : i < size) :
    (n + i) % size = i - (size - n % size) := by
  have hlt : n % size < size := Nat.mod_lt n (by omega)
  rw [← Nat.mod_add_mod, Nat.mod_eq_sub_mod (by omega), Nat.mod_eq_of_lt (by omega)]
  omega

/-- Two positions less than the size apart are different. -/
theorem circular_ne {i j size : Nat} (h : i < j) (hj : j < i + size) : i % size ≠ j % size := by
  intro he
  have hzero : (j - i) % size = 0 := Nat.sub_mod_eq_zero_of_mod_eq he.symm
  rw [Nat.mod_eq_of_lt (by omega)] at hzero
  omega

namespace RingBuffer

variable {b b' : RingBuffer} {q : List UInt8}

/-- The ring buffer holds the bytes of the queue. -/
structure Holds (b : RingBuffer) (q : List UInt8) : Prop where
  size : 0 < b.size.toNat
  write : b.write.toNat = b.read.toNat + q.length
  room : q.length ≤ b.size.toNat
  data : ∀ i v, q[i]? = some v → b.data ((b.read.toNat + i) % b.size.toNat) = v

theorem Holds.dataCount (h : b.Holds q) : b.dataCount.toNat = q.length := by
  have hwrite := h.write
  rw [RingBuffer.dataCount, UInt64.toNat_sub_of_le _ _ (UInt64.le_iff_toNat_le.mpr (by omega))]
  omega

theorem Holds.freeSpace (h : b.Holds q) : b.freeSpace.toNat = b.size.toNat - q.length := by
  have hroom := h.room
  have hcount := h.dataCount
  rw [RingBuffer.freeSpace, UInt64.toNat_sub_of_le _ _ (UInt64.le_iff_toNat_le.mpr (by omega)),
    hcount]

theorem toNat_min (x y : UInt64) : (min x y).toNat = min x.toNat y.toNat := by
  rw [show min x y = if x ≤ y then x else y from rfl]
  split
  · next h => exact (Nat.min_eq_left (UInt64.le_iff_toNat_le.mp h)).symm
  · next h => exact (Nat.min_eq_right (Nat.le_of_not_le fun hle =>
      h (UInt64.le_iff_toNat_le.mpr hle))).symm

theorem Holds.ne_zero (h : b.Holds q) : b.size ≠ 0 := by
  intro he
  have hsize := h.size
  rw [he] at hsize
  exact absurd hsize (by decide)

/-! ## Copies -/

theorem load_of_le {offset count : UInt64} (h : offset.toNat + count.toNat ≤ b.size.toNat) :
    b.load offset count =
      some ((List.range count.toNat).map fun i => b.data (offset.toNat + i)) := if_pos h

/-- A copy into the data area changes the bytes that it covers. -/
theorem store_of_le (offset : UInt64) (bytes : List UInt8)
    (h : offset.toNat + bytes.length ≤ b.size.toNat) :
    ∃ b', b.store offset bytes = some b' ∧ b'.size = b.size ∧ b'.write = b.write ∧
      b'.read = b.read ∧
      (∀ i v, bytes[i]? = some v → b'.data (offset.toNat + i) = v) ∧
      ∀ p, p < offset.toNat ∨ offset.toNat + bytes.length ≤ p → b'.data p = b.data p := by
  refine ⟨_, if_pos h, rfl, rfl, rfl, fun i v hv => ?_, fun p hp => ?_⟩
  · obtain ⟨hi, -⟩ := List.getElem?_eq_some_iff.mp hv
    refine (if_pos ⟨Nat.le_add_right _ _, by omega⟩).trans ?_
    rw [Nat.add_sub_cancel_left, List.getD_eq_getElem?_getD, hv, Option.getD_some]
  · exact if_neg (by omega)

/-- What `u80211_ringbuffer_write` leaves behind: the bytes at the positions from `write` on are
new, and no other one is. -/
structure Written (b b' : RingBuffer) (bytes : List UInt8) (n : Nat) : Prop where
  size : b'.size = b.size
  read : b'.read = b.read
  write : b'.write.toNat = b.write.toNat + n
  new : ∀ i v, i < n → bytes[i]? = some v →
    b'.data ((b.write.toNat + i) % b.size.toNat) = v
  old : ∀ p, p < b.size.toNat → (∀ i < n, (b.write.toNat + i) % b.size.toNat ≠ p) →
    b'.data p = b.data p

theorem Written.holds {bytes : List UInt8} {n : Nat} (hw : Written b b' bytes n) (h : b.Holds q)
    (hn : n ≤ bytes.length) (hroom : q.length + n ≤ b.size.toNat) :
    b'.Holds (q ++ bytes.take n) := by
  have hlength : (bytes.take n).length = n := by rw [List.length_take, Nat.min_eq_left hn]
  have hwrite := h.write
  refine ⟨?_, ?_, ?_, fun i v hv => ?_⟩
  · rw [hw.size]; exact h.size
  · rw [hw.write, hw.read, List.length_append, hlength]
    omega
  · rw [hw.size, List.length_append, hlength]
    exact hroom
  rw [hw.size, hw.read]
  by_cases hi : i < q.length
  · -- a byte of the queue stands where it stood
    rw [List.getElem?_append_left hi] at hv
    rw [hw.old _ (Nat.mod_lt _ h.size) fun j hj => ?_, h.data i v hv]
    exact (circular_ne (by omega) (by omega)).symm
  · rw [List.getElem?_append_right (by omega)] at hv
    have hlt : i - q.length < n := by
      obtain ⟨hlt, -⟩ := List.getElem?_eq_some_iff.mp hv
      omega
    rw [List.getElem?_take_of_lt hlt] at hv
    have hnew := hw.new _ v hlt hv
    rwa [show b.write.toNat + (i - q.length) = b.read.toNat + i by omega] at hnew

/-- The copies of `u80211_ringbuffer_write`. -/
theorem write_written (h : b.Holds q) {bytes : List UInt8} {count : UInt64}
    (hn : count.toNat ≤ bytes.length)
    (hwrap : b.write.toNat + min count.toNat (b.size.toNat - q.length) < 2 ^ 64) :
    ∃ b' n, ringbufferWrite b bytes count = some (b', n) ∧
      n.toNat = min count.toNat (b.size.toNat - q.length) ∧ Written b b' bytes n.toNat := by
  have hsize := h.size
  have hroom := h.room
  have hmod : b.write.toNat % b.size.toNat < b.size.toNat := Nat.mod_lt _ hsize
  rw [ringbufferWrite, if_neg h.ne_zero]
  dsimp only
  generalize hcount : min count b.freeSpace = n
  generalize hoffset : b.write % b.size = offset
  generalize hremaining : b.size - offset = remaining
  generalize hfirst : min n remaining = first
  have hn' : n.toNat = min count.toNat (b.size.toNat - q.length) := by
    rw [← hcount, toNat_min, h.freeSpace]
  have hoffset' : offset.toNat = b.write.toNat % b.size.toNat := by
    rw [← hoffset, UInt64.toNat_mod]
  have hremaining' : remaining.toNat = b.size.toNat - b.write.toNat % b.size.toNat := by
    rw [← hremaining, UInt64.toNat_sub_of_le _ _ (UInt64.le_iff_toNat_le.mpr (by omega)), hoffset']
  have hfirst' : first.toNat = min n.toNat remaining.toNat := by
    rw [← hfirst, toNat_min]
  have hlength : (slice bytes 0 first.toNat).length = first.toNat := length_slice (by omega)
  have hbyte {off k i : Nat} (hk : off + k ≤ bytes.length) (hi : i < k) :
      (slice bytes off k)[i]? = bytes[off + i]? := by
    rw [slice, List.getElem?_take_of_lt hi, List.getElem?_drop]
  rw [readBytes_of_le (by omega)]
  simp only [Option.bind_eq_bind, Option.bind_some]
  obtain ⟨b₁, hb₁, hsize₁, hwrite₁, hread₁, hnew₁, hold₁⟩ :=
    store_of_le (b := b) offset (slice bytes 0 first.toNat) (by omega)
  rw [hb₁, Option.bind_some]
  have hsum : (b.write + n).toNat = b.write.toNat + n.toNat := by
    rw [UInt64.toNat_add, Nat.mod_eq_of_lt (by omega)]
  by_cases hall : first = n
  · -- the bytes fit in front of the end of the data area
    subst hall
    rw [if_neg (not_not_intro rfl)]
    refine ⟨_, _, rfl, hn', ⟨hsize₁, hread₁, by rw [← hsum, hwrite₁], ?_, ?_⟩⟩
    · intro i v hi hv
      rw [circular_of_lt (by omega), ← hoffset']
      refine hnew₁ i v ?_
      rw [hbyte (by omega) hi, Nat.zero_add]
      exact hv
    · intro p hp hnot
      refine hold₁ p ?_
      by_contra hin
      refine hnot (p - offset.toNat) (by omega) ?_
      rw [circular_of_lt (by omega), ← hoffset']
      omega
  · -- the rest goes to the start of the data area
    have hne : first.toNat ≠ n.toNat := fun he => hall (UInt64.toNat_inj.mp he)
    have hrest : (n - first).toNat = n.toNat - first.toNat :=
      UInt64.toNat_sub_of_le _ _ (UInt64.le_iff_toNat_le.mpr (by omega))
    have hlength₂ : (slice bytes first.toNat (n - first).toNat).length = (n - first).toNat :=
      length_slice (by omega)
    rw [if_pos hall, readBytes_of_le (by omega), Option.bind_some]
    obtain ⟨b₂, hb₂, hsize₂, hwrite₂, hread₂, hnew₂, hold₂⟩ :=
      store_of_le (b := b₁) 0 (slice bytes first.toNat (n - first).toNat)
        (by rw [hsize₁, hlength₂, UInt64.toNat_zero]; omega)
    simp only [UInt64.toNat_zero, Nat.zero_add] at hnew₂ hold₂
    rw [hb₂, Option.bind_some]
    refine ⟨_, _, rfl, hn', ⟨hsize₂.trans hsize₁, hread₂.trans hread₁,
      by rw [← hsum, hwrite₂, hwrite₁], ?_, ?_⟩⟩
    · intro i v hi hv
      by_cases hbefore : i < b.size.toNat - b.write.toNat % b.size.toNat
      · rw [circular_of_lt hbefore, ← hoffset']
        refine (hold₂ _ (Or.inr (by omega))).trans (hnew₁ i v ?_)
        rw [hbyte (by omega) (by omega), Nat.zero_add]
        exact hv
      · rw [circular_of_ge (by omega) (by omega)]
        refine hnew₂ _ v ?_
        rw [hbyte (by omega) (by omega), ← hv]
        congr 1
        omega
    · intro p hp hnot
      have hlow : ¬ p < n.toNat - first.toNat := fun hlt => by
        refine hnot (p + first.toNat) (by omega) ?_
        rw [circular_of_ge (by omega) (by omega)]
        omega
      have hhigh : ¬ offset.toNat ≤ p := fun hle => by
        refine hnot (p - offset.toNat) (by omega) ?_
        rw [circular_of_lt (by omega), ← hoffset']
        omega
      exact (hold₂ p (Or.inr (by omega))).trans (hold₁ p (Or.inl (by omega)))

/-- **`u80211_ringbuffer_write` appends the bytes that there is room for.** -/
theorem write_spec (h : b.Holds q) (bytes : List UInt8) (count : UInt64)
    (hn : count.toNat ≤ bytes.length)
    (hwrap : b.write.toNat + min count.toNat (b.size.toNat - q.length) < 2 ^ 64) :
    ∃ b' n, ringbufferWrite b bytes count = some (b', n) ∧
      n.toNat = min count.toNat (b.size.toNat - q.length) ∧
      b'.Holds (q ++ bytes.take n.toNat) ∧ Written b b' bytes n.toNat := by
  obtain ⟨b', n, hb', hn', hw⟩ := write_written h hn hwrap
  have hroom := h.room
  exact ⟨b', n, hb', hn', hw.holds h (by omega) (by omega), hw⟩

/-- The bytes of the queue that stand in a row in the data area. -/
theorem Holds.row (h : b.Holds q) {offset k i : Nat} (hk : i + k ≤ q.length)
    (hrow : ∀ j < k, (b.read.toNat + (i + j)) % b.size.toNat = offset + j) :
    ((List.range k).map fun j => b.data (offset + j)) = (q.drop i).take k := by
  refine List.ext_getElem? fun j => ?_
  by_cases hj : j < k
  · obtain ⟨v, hv⟩ : ∃ v, q[i + j]? = some v := ⟨_, List.getElem?_eq_getElem (by omega)⟩
    rw [List.getElem?_map, List.getElem?_range hj, Option.map_some, List.getElem?_take_of_lt hj,
      List.getElem?_drop, hv, ← hrow j hj, h.data _ v hv]
  · rw [List.getElem?_eq_none (by rw [List.length_map, List.length_range]; omega),
      List.getElem?_eq_none (by rw [List.length_take]; omega)]

/-- The two copies out of the data area that start at byte `i` of the queue. -/
theorem Holds.copies (h : b.Holds q) {i : Nat} {n position : UInt64}
    (hn : i + n.toNat ≤ q.length) (hposition : position.toNat = b.read.toNat + i) :
    ∃ first, b.load (position % b.size) (min n (b.size - position % b.size)) = some first ∧
      ((min n (b.size - position % b.size) = n ∧ first = (q.drop i).take n.toNat) ∨
        min n (b.size - position % b.size) ≠ n ∧
          ∃ second, b.load 0 (n - min n (b.size - position % b.size)) = some second ∧
            first ++ second = (q.drop i).take n.toNat) := by
  have hsize := h.size
  have hroom := h.room
  have hmod : position.toNat % b.size.toNat < b.size.toNat := Nat.mod_lt _ hsize
  generalize hoffset : position % b.size = offset
  generalize hremaining : b.size - offset = remaining
  generalize hfirst : min n remaining = first
  have hoffset' : offset.toNat = position.toNat % b.size.toNat := by
    rw [← hoffset, UInt64.toNat_mod]
  have hremaining' : remaining.toNat = b.size.toNat - position.toNat % b.size.toNat := by
    rw [← hremaining, UInt64.toNat_sub_of_le _ _ (UInt64.le_iff_toNat_le.mpr (by omega)), hoffset']
  have hfirst' : first.toNat = min n.toNat remaining.toNat := by
    rw [← hfirst, toNat_min]
  have hrow₁ : ((List.range first.toNat).map fun j => b.data (offset.toNat + j)) =
      (q.drop i).take first.toNat := by
    refine h.row (by omega) fun j hj => ?_
    rw [← Nat.add_assoc, ← hposition, circular_of_lt (by omega), hoffset']
  rw [load_of_le (by omega), hrow₁]
  by_cases hall : first = n
  · subst hall
    exact ⟨_, rfl, Or.inl ⟨rfl, rfl⟩⟩
  · have hne : first.toNat ≠ n.toNat := fun he => hall (UInt64.toNat_inj.mp he)
    have hrest : (n - first).toNat = n.toNat - first.toNat :=
      UInt64.toNat_sub_of_le _ _ (UInt64.le_iff_toNat_le.mpr (by omega))
    have hrow₂ : ((List.range (n - first).toNat).map fun j =>
        b.data ((0 : UInt64).toNat + j)) = (q.drop (i + first.toNat)).take (n - first).toNat := by
      refine h.row (by omega) fun j hj => ?_
      rw [show b.read.toNat + (i + first.toNat + j) = position.toNat + (first.toNat + j) by omega,
        circular_of_ge (by omega) (by omega), UInt64.toNat_zero]
      omega
    rw [load_of_le (by rw [UInt64.toNat_zero]; omega), hrow₂]
    refine ⟨_, rfl, Or.inr ⟨hall, _, rfl, ?_⟩⟩
    rw [hrest, ← List.drop_drop, ← List.take_add, Nat.add_sub_cancel' (by omega)]

/-- The first bytes of the queue are gone once `read` has passed them. -/
theorem Holds.drop (h : b.Holds q) {n : UInt64} (hn : n.toNat ≤ q.length) :
    ({ b with read := b.read + n } : RingBuffer).Holds (q.drop n.toNat) := by
  have hwrite := h.write
  have hroom := h.room
  have hlt := b.write.toNat_lt
  have hsum : (b.read + n).toNat = b.read.toNat + n.toNat := by
    rw [UInt64.toNat_add, Nat.mod_eq_of_lt (by omega)]
  refine ⟨h.size, ?_, ?_, fun i v hv => ?_⟩
  · show b.write.toNat = (b.read + n).toNat + _
    rw [List.length_drop, hsum]
    omega
  · show (q.drop n.toNat).length ≤ b.size.toNat
    rw [List.length_drop]
    omega
  · show b.data (((b.read + n).toNat + i) % b.size.toNat) = v
    rw [List.getElem?_drop] at hv
    rw [hsum, Nat.add_assoc]
    exact h.data _ v hv

/-- The last bytes of the queue are gone once `write` is in front of them. -/
theorem Holds.dropLast (h : b.Holds q) {n : UInt64} (hn : n.toNat ≤ q.length) :
    ({ b with write := b.write - n } : RingBuffer).Holds (q.take (q.length - n.toNat)) := by
  have hwrite := h.write
  have hroom := h.room
  have hdiff : (b.write - n).toNat = b.write.toNat - n.toNat :=
    UInt64.toNat_sub_of_le _ _ (UInt64.le_iff_toNat_le.mpr (by omega))
  refine ⟨h.size, ?_, ?_, fun i v hv => ?_⟩
  · show (b.write - n).toNat = b.read.toNat + _
    rw [List.length_take, hdiff]
    omega
  · show (q.take (q.length - n.toNat)).length ≤ b.size.toNat
    rw [List.length_take]
    omega
  · obtain ⟨hi, -⟩ := List.getElem?_eq_some_iff.mp hv
    rw [List.length_take] at hi
    rw [List.getElem?_take_of_lt (by omega)] at hv
    exact h.data i v hv

/-! ## What the operations do to the queue -/

/-- **`u80211_ringbuffer_read` takes the bytes that there are.** -/
theorem read_spec (h : b.Holds q) (count : UInt64) :
    ∃ b', ringbufferRead b count = some (b', q.take count.toNat) ∧
      b'.Holds (q.drop count.toNat) ∧ b'.size = b.size ∧ b'.write = b.write ∧
      b'.data = b.data := by
  have hn : (min count b.dataCount).toNat = min count.toNat q.length := by
    rw [toNat_min, h.dataCount]
  obtain ⟨first, hfirst, hsecond⟩ :=
    h.copies (n := min count b.dataCount) (by omega) (Nat.add_zero _).symm
  have hafter := h.drop (n := min count b.dataCount) (by omega)
  rw [hn, ← List.drop_eq_drop_min] at hafter
  rw [hn, List.drop_zero, ← List.take_eq_take_min] at hsecond
  refine ⟨_, ?_, hafter, rfl, rfl, rfl⟩
  rw [ringbufferRead, if_neg h.ne_zero]
  rcases hsecond with ⟨hall, rfl⟩ | ⟨hall, second, hsecond, he⟩
  · rw [hall] at hfirst
    simp [hfirst, hall]
  · simp [hfirst, hall, hsecond, he]

/-- **`u80211_ringbuffer_peek` copies the bytes from an offset on.** -/
theorem peek_spec (h : b.Holds q) (offset count : UInt64) :
    ringbufferPeek b offset count = some ((q.drop offset.toNat).take count.toNat) := by
  have hcount := h.dataCount
  have hwrite := h.write
  have hlt := b.write.toNat_lt
  rw [ringbufferPeek]
  by_cases hout : b.dataCount ≤ offset
  · have hle := UInt64.le_iff_toNat_le.mp hout
    rw [if_pos hout, List.drop_eq_nil_of_le (by omega), List.take_nil]
  · have hle : ¬ b.dataCount.toNat ≤ offset.toNat := fun hle =>
      hout (UInt64.le_iff_toNat_le.mpr hle)
    have hrest : (b.dataCount - offset).toNat = q.length - offset.toNat := by
      rw [UInt64.toNat_sub_of_le _ _ (UInt64.le_iff_toNat_le.mpr (by omega)), hcount]
    have hn : (min count (b.dataCount - offset)).toNat =
        min count.toNat (q.length - offset.toNat) := by
      rw [toNat_min, hrest]
    have hposition : (b.read + offset).toNat = b.read.toNat + offset.toNat := by
      rw [UInt64.toNat_add, Nat.mod_eq_of_lt (by omega)]
    obtain ⟨first, hfirst, hsecond⟩ :=
      h.copies (n := min count (b.dataCount - offset)) (by omega) hposition
    rw [hn, ← List.length_drop, ← List.take_eq_take_min] at hsecond
    rw [if_neg hout, if_neg h.ne_zero]
    rcases hsecond with ⟨hall, rfl⟩ | ⟨hall, second, hsecond, he⟩
    · rw [hall] at hfirst
      simp [hfirst, hall]
    · simp [hfirst, hall, hsecond, he]

/-- **`u80211_ringbuffer_truncate` takes the bytes that there are.** -/
theorem truncate_spec (h : b.Holds q) (count : UInt64) :
    (ringbufferTruncate b count).2.toNat = min count.toNat q.length ∧
      (ringbufferTruncate b count).1.Holds (q.drop count.toNat) := by
  have hn : (min b.dataCount count).toNat = min count.toNat q.length := by
    rw [toNat_min, h.dataCount, Nat.min_comm]
  have hafter := h.drop (n := min b.dataCount count) (by omega)
  rw [hn, ← List.drop_eq_drop_min] at hafter
  exact ⟨hn, hafter⟩

theorem toNat_remove (h : b.Holds q) (count : UInt64) :
    (ringbufferRemove b count).1.write.toNat =
      b.write.toNat - (ringbufferRemove b count).2.toNat := by
  have hwrite := h.write
  have hn : (min b.dataCount count).toNat ≤ b.write.toNat := by
    rw [toNat_min, h.dataCount]
    omega
  exact UInt64.toNat_sub_of_le _ _ (UInt64.le_iff_toNat_le.mpr hn)

/-- **`u80211_ringbuffer_remove` takes the last bytes, as many as there are.** -/
theorem remove_spec (h : b.Holds q) (count : UInt64) :
    (ringbufferRemove b count).2.toNat = min count.toNat q.length ∧
      (ringbufferRemove b count).1.Holds (q.take (q.length - count.toNat)) := by
  have hn : (min b.dataCount count).toNat = min count.toNat q.length := by
    rw [toNat_min, h.dataCount, Nat.min_comm]
  have hafter := h.dropLast (n := min b.dataCount count) (by omega)
  rw [show q.length - (min b.dataCount count).toNat = q.length - count.toNat by omega] at hafter
  exact ⟨hn, hafter⟩

/-! ## How much a call takes or adds at most -/

theorem read_eq_some {count : UInt64} {bytes : List UInt8}
    (h : ringbufferRead b count = some (b', bytes)) :
    b' = { b with read := b.read + min count b.dataCount } := by
  unfold ringbufferRead at h
  split at h
  · cases h
  · obtain ⟨first, -, h⟩ := Option.bind_eq_some_iff.mp h
    dsimp only at h
    split at h
    · obtain ⟨second, -, h⟩ := Option.bind_eq_some_iff.mp h
      cases h
      rfl
    · cases h
      rfl

/-- What a read takes out is no longer counted. -/
theorem dataCount_of_read {count : UInt64} {bytes : List UInt8}
    (h : ringbufferRead b count = some (b', bytes)) :
    b'.dataCount.toNat + min count.toNat b.dataCount.toNat = b.dataCount.toNat := by
  have hmin := toNat_min count b.dataCount
  have hle : min count b.dataCount ≤ b.dataCount := UInt64.le_iff_toNat_le.mpr (by omega)
  have hcount : b'.dataCount = b.dataCount - min count b.dataCount := by
    rw [read_eq_some h]
    simp only [dataCount]
    grind
  rw [hcount, UInt64.toNat_sub_of_le _ _ hle, hmin]
  omega

theorem store_eq_some {offset : UInt64} {bytes : List UInt8} (h : b.store offset bytes = some b') :
    b'.write = b.write ∧ b'.read = b.read := by
  unfold store at h
  split at h <;> cases h
  exact ⟨rfl, rfl⟩

theorem write_eq_some {buffer : List UInt8} {count n : UInt64}
    (h : ringbufferWrite b buffer count = some (b', n)) :
    b'.write = b.write + min count b.freeSpace ∧ b'.read = b.read := by
  unfold ringbufferWrite at h
  split at h
  · cases h
  · obtain ⟨first, -, h⟩ := Option.bind_eq_some_iff.mp h
    obtain ⟨b₁, hfirst, h⟩ := Option.bind_eq_some_iff.mp h
    obtain ⟨hwrite, hread⟩ := store_eq_some hfirst
    dsimp only at h
    split at h
    · obtain ⟨second, -, h⟩ := Option.bind_eq_some_iff.mp h
      obtain ⟨b₂, hsecond, h⟩ := Option.bind_eq_some_iff.mp h
      obtain ⟨hwrite', hread'⟩ := store_eq_some hsecond
      cases h
      exact ⟨by rw [← hwrite, ← hwrite'], hread'.trans hread⟩
    · cases h
      exact ⟨by rw [← hwrite], hread⟩

/-- A write adds as many bytes as it is asked to at most. -/
theorem dataCount_of_write_le {buffer : List UInt8} {count n : UInt64}
    (h : ringbufferWrite b buffer count = some (b', n)) :
    b'.dataCount.toNat ≤ b.dataCount.toNat + count.toNat := by
  obtain ⟨hwrite, hread⟩ := write_eq_some h
  have hmin := toNat_min count b.freeSpace
  have hcount : b'.dataCount = b.dataCount + min count b.freeSpace := by
    simp only [dataCount, hwrite, hread]
    grind
  rw [hcount, UInt64.toNat_add, hmin]
  exact Nat.le_trans (Nat.mod_le _ _) (by omega)
end RingBuffer

/-! ## The queue -/

/-- A queue of bytes with room for `capacity` of them, and the answer of the last call. -/
structure ByteQueue where
  capacity : Nat
  bytes : List UInt8
  answer : RingAnswer

namespace ByteQueue

def empty (capacity : Nat) : ByteQueue := { capacity, bytes := [], answer := .done }

/-- The number of bytes that a call appends. -/
def written (q : ByteQueue) : RingAction → Nat
  | .write _ count => min count.toNat (q.capacity - q.bytes.length)
  | _ => 0

/-- The number of bytes that a call takes from one end. -/
def taken (q : ByteQueue) (count : UInt64) : Nat := min count.toNat q.bytes.length

def next (q : ByteQueue) : RingAction → ByteQueue
  | .write buffer count =>
    { q with
      bytes := q.bytes ++ buffer.take (q.written (.write buffer count))
      answer := .count (UInt64.ofNat (q.written (.write buffer count))) }
  | .read count =>
    { q with
      bytes := q.bytes.drop (q.taken count), answer := .bytes (q.bytes.take (q.taken count)) }
  | .peek offset count =>
    { q with answer := .bytes ((q.bytes.drop offset.toNat).take count.toNat) }
  | .truncate count =>
    { q with
      bytes := q.bytes.drop (q.taken count), answer := .count (UInt64.ofNat (q.taken count)) }
  | .remove count =>
    { q with
      bytes := q.bytes.take (q.bytes.length - q.taken count)
      answer := .count (UInt64.ofNat (q.taken count)) }

/-- The queue after a sequence of calls. -/
def run (q : ByteQueue) (as : List RingAction) : ByteQueue := as.foldl next q

/-- The number of bytes that a sequence of calls appends. -/
def totalWritten (q : ByteQueue) : List RingAction → Nat
  | [] => 0
  | a :: as => q.written a + (q.next a).totalWritten as

end ByteQueue

namespace RingSystem

variable {s s' : RingSystem} {q : ByteQueue} {a : RingAction}

/-- The ring buffer is the queue, and its counters are as far apart as they may be. -/
structure Refines (s : RingSystem) (q : ByteQueue) : Prop where
  holds : s.buffer.Holds q.bytes
  size : s.buffer.size.toNat = q.capacity
  answer : s.answer = q.answer
  ordered : s.buffer.read.toNat ≤ s.buffer.write.toNat ∧
    s.buffer.write.toNat ≤ s.buffer.read.toNat + s.buffer.size.toNat

/-- The bytes that were in the queue stand where they stood. -/
def Keeps (s s' : RingSystem) (q : ByteQueue) : Prop :=
  ∀ i < q.bytes.length, s'.buffer.data ((s.buffer.read.toNat + i) % s.buffer.size.toNat) =
    s.buffer.data ((s.buffer.read.toNat + i) % s.buffer.size.toNat)

theorem refines_of_holds (holds : s.buffer.Holds q.bytes) (size : s.buffer.size.toNat = q.capacity)
    (answer : s.answer = q.answer) : s.Refines q := by
  have hwrite := holds.write
  have hroom := holds.room
  exact ⟨holds, size, answer, by omega, by omega⟩

theorem ofNat_eq {n : UInt64} {k : Nat} (h : n.toNat = k) : UInt64.ofNat k = n := by
  rw [← h, UInt64.ofNat_toNat]

/-- One call is one of the queue, and does not change what is in it. -/
theorem step_spec (h : s.Refines q) (ha : a.Allowed)
    (hwrap : s.buffer.write.toNat + q.written a < 2 ^ 64) :
    ∃ s', step a s = some s' ∧ s'.Refines (q.next a) ∧ Keeps s s' q ∧
      s'.buffer.write.toNat ≤ s.buffer.write.toNat + q.written a := by
  have hsize := h.size
  have hlength := h.holds.write
  cases a with
  | write buffer count =>
    simp only [ByteQueue.written] at hwrap
    rw [← hsize] at hwrap
    obtain ⟨b', n, hb', hn, hholds, hwritten⟩ := RingBuffer.write_spec h.holds buffer count ha hwrap
    rw [hsize] at hn
    refine ⟨⟨b', .count n⟩, ?_, refines_of_holds ?_ ?_ ?_, fun i hi => ?_, ?_⟩
    · rw [step, hb', Option.map_some]
    · rw [hn] at hholds
      exact hholds
    · exact (congrArg UInt64.toNat hwritten.size).trans hsize
    · exact congrArg RingAnswer.count (ofNat_eq hn).symm
    · -- the bytes that are written stand behind those of the queue
      have hroom := h.holds.room
      refine hwritten.old _ (Nat.mod_lt _ h.holds.size) fun j hj => ?_
      exact (circular_ne (by omega) (by omega)).symm
    · exact Nat.le_of_eq (hwritten.write.trans (congrArg _ hn))
  | read count =>
    obtain ⟨b', hb', hholds, hsize', hwrite', hdata⟩ := RingBuffer.read_spec h.holds count
    refine ⟨⟨b', .bytes (q.bytes.take count.toNat)⟩, ?_, refines_of_holds ?_ ?_ ?_, fun i _ => ?_,
      ?_⟩
    · rw [step, hb', Option.map_some]
    · rw [List.drop_eq_drop_min] at hholds
      exact hholds
    · exact (congrArg UInt64.toNat hsize').trans hsize
    · exact congrArg RingAnswer.bytes List.take_eq_take_min
    · exact congrFun hdata _
    · exact Nat.le_of_eq (congrArg UInt64.toNat hwrite')
  | peek offset count =>
    refine ⟨⟨s.buffer, .bytes ((q.bytes.drop offset.toNat).take count.toNat)⟩, ?_,
      refines_of_holds h.holds hsize rfl, fun i _ => rfl, Nat.le_refl _⟩
    rw [step, RingBuffer.peek_spec h.holds offset count, Option.map_some]
  | truncate count =>
    obtain ⟨hn, hholds⟩ := RingBuffer.truncate_spec h.holds count
    refine ⟨_, rfl, refines_of_holds ?_ hsize ?_, fun i _ => rfl, Nat.le_refl _⟩
    · rw [List.drop_eq_drop_min] at hholds
      exact hholds
    · exact congrArg RingAnswer.count (ofNat_eq hn).symm
  | remove count =>
    obtain ⟨hn, hholds⟩ := RingBuffer.remove_spec h.holds count
    refine ⟨_, rfl, refines_of_holds ?_ hsize ?_, fun i _ => rfl, ?_⟩
    · rw [show q.bytes.length - count.toNat = q.bytes.length - q.taken count by
        unfold ByteQueue.taken; omega] at hholds
      exact hholds
    · exact congrArg RingAnswer.count (ofNat_eq hn).symm
    · -- the counter moves back
      exact Nat.le_trans (Nat.le_of_eq (RingBuffer.toNat_remove h.holds count)) (Nat.sub_le _ _)

theorem refines_init {size : UInt64} (hsize : size ≠ 0) (memory : Nat → UInt8) :
    (init size memory).Refines (.empty size.toNat) := by
  refine refines_of_holds ⟨?_, rfl, Nat.zero_le _, fun i v hv => by cases hv⟩ rfl rfl
  exact Nat.pos_of_ne_zero fun he => hsize (UInt64.toNat_inj.mp he)

/-- From a queue on, all calls are answered as it answers them. -/
theorem exec_spec {as : List RingAction} (h : s.Refines q) (ha : ∀ a ∈ as, a.Allowed)
    (hwrap : s.buffer.write.toNat + q.totalWritten as < 2 ^ 64) :
    ∃ s', Lts.exec step as s = some s' ∧ s'.Refines (q.run as) ∧
      ∀ t ∈ Lts.trace step as s, ∃ q, t.before.Refines q ∧ t.after.Refines (q.next t.action) ∧
        Keeps t.before t.after q := by
  induction as generalizing s q with
  | nil => exact ⟨s, rfl, h, fun t ht => by cases ht⟩
  | cons a as ih =>
    rw [ByteQueue.totalWritten] at hwrap
    obtain ⟨s₁, hs₁, h₁, hkeeps, hwrite⟩ := step_spec h (ha a List.mem_cons_self) (by omega)
    obtain ⟨s', hs', h', htrace⟩ := ih h₁ (fun b hb => ha b (List.mem_cons_of_mem a hb)) (by omega)
    refine ⟨s', ?_, h', fun t ht => ?_⟩
    · rw [Lts.exec, hs₁]
      exact hs'
    · rw [Lts.trace, hs₁] at ht
      rcases List.mem_cons.mp ht with rfl | ht
      · exact ⟨q, h, h₁, hkeeps⟩
      · exact htrace t ht

/-- **The ring buffer is a bounded queue of bytes.** Every sequence of calls that appends fewer than
2⁶⁴ bytes is answered, and no call copies from or to a place outside of the data area; each one does
what it does to the queue and answers what the queue answers; and none alters a byte that is in
the queue. -/
theorem ringbuffer_refines_queue {size : UInt64} (hsize : size ≠ 0) (memory : Nat → UInt8)
    {as : List RingAction} (ha : ∀ a ∈ as, a.Allowed)
    (htotal : (ByteQueue.empty size.toNat).totalWritten as < 2 ^ 64) :
    ∃ s, Lts.exec step as (init size memory) = some s ∧
      s.Refines ((ByteQueue.empty size.toNat).run as) ∧
      ∀ t ∈ Lts.trace step as (init size memory), ∃ q, t.before.Refines q ∧
        t.after.Refines (q.next t.action) ∧ Keeps t.before t.after q := by
  refine exec_spec (refines_init hsize memory) ha ?_
  rw [show (init size memory).buffer.write.toNat = 0 from rfl, Nat.zero_add]
  exact htotal

theorem ringbuffer_refines_queue_wrap :
    ∃ s, Lts.exec step [.write [1, 2, 3] 3, .truncate 2, .write [4, 5, 6] 3, .remove 1, .read 9]
        (init 3 fun _ => 0) = some s ∧ s.answer = .bytes [3, 4] := by
  have hsize : (3 : UInt64) ≠ 0 := by decide
  have ha : ∀ a ∈ ([.write [1, 2, 3] 3, .truncate 2, .write [4, 5, 6] 3, .remove 1, .read 9] :
      List RingAction), a.Allowed := by decide
  obtain ⟨s, hs, h, -⟩ := ringbuffer_refines_queue hsize (fun _ => 0) ha (by decide)
  exact ⟨s, hs, h.answer.trans (by decide)⟩

end RingSystem

end U80211
