import U80211.Packet

/-!
# Transmit buffers

* `Holds`: what a descriptor holds
* `Holds.prepend`, `Holds.append`: writing in front of and behind what a descriptor holds
* `Holds.read`, `Holds.skip`, `Holds.rebase`: reading from the front, and moving the front
-/

namespace U80211

open Memory

/-- The descriptor lies inside of its buffer and holds the bytes. -/
structure TxBufferDescriptor.Holds (d : TxBufferDescriptor) (bs : List UInt8) : Prop where
  offset : d.currentOffset ≤ d.size
  bounds : d.data + d.size ≤ d.buffer.length
  content : d.content = bs

/-- `d'` is what is left of `d` after `n` bytes have been put in front: the same place in a buffer
of the same size. -/
structure TxBufferDescriptor.Behind (d d' : TxBufferDescriptor) (n : Nat) : Prop where
  data : d'.data = d.data
  size : d'.size = d.size
  currentOffset : d'.currentOffset = d.currentOffset - n
  buffer : d'.buffer.length = d.buffer.length

namespace TxBufferDescriptor

variable {d : TxBufferDescriptor} {bs : List UInt8}

theorem Holds.length (h : d.Holds bs) : bs.length = d.size - d.currentOffset := by
  have hb := h.bounds
  have ho := h.offset
  rw [← h.content, TxBufferDescriptor.content, length_slice (by omega)]

/-- All of what the descriptor holds is read back. -/
theorem Holds.readAll (h : d.Holds bs) :
    readBytes d.buffer (d.data + d.currentOffset) (d.size - d.currentOffset) =
      some ⟨bs, h.length⟩ := by
  have ho := h.offset
  have hb := h.bounds
  rw [readBytes_of_le (by omega), Option.some.injEq, FixedBytes.ext_iff']
  exact h.content

/-- What stands in the buffer from the current offset on. -/
theorem Holds.drop (h : d.Holds bs) :
    d.buffer.drop (d.data + d.currentOffset) = bs ++ d.buffer.drop (d.data + d.size) := by
  have ho := h.offset
  have hsplit := List.take_append_drop (d.size - d.currentOffset)
    (d.buffer.drop (d.data + d.currentOffset))
  rw [List.drop_drop, show d.data + d.currentOffset + (d.size - d.currentOffset) =
    d.data + d.size by omega] at hsplit
  rw [← hsplit, ← h.content]
  rfl

theorem allocateSpace_of_le {n : Nat} (h : n ≤ d.currentOffset) :
    d.allocateSpace n = some (d.data + (d.currentOffset - n),
      { d with currentOffset := d.currentOffset - n }) := by
  rw [allocateSpace, if_neg (by omega)]

theorem write_append (d : TxBufferDescriptor) (a b : List UInt8) (off : Nat) :
    ((d.write off a).bind fun d => d.write (off + a.length) b) = d.write off (a ++ b) := by
  have h := writeBytes_append d.buffer a b off
  unfold write
  rw [← h]
  cases writeBytes d.buffer off a <;> rfl

/-- **Bytes written into the space in front of what a descriptor holds.** -/
theorem Holds.prepend (h : d.Holds bs) (pre : List UInt8) (hn : pre.length ≤ d.currentOffset) :
    ∃ d', ({ d with currentOffset := d.currentOffset - pre.length } : TxBufferDescriptor).write
        (d.data + (d.currentOffset - pre.length)) pre = some d' ∧
      d'.Holds (pre ++ bs) ∧ d.Behind d' pre.length := by
  have ho := h.offset
  have hb := h.bounds
  obtain ⟨buffer, hw⟩ : ∃ buffer,
      writeBytes d.buffer (d.data + (d.currentOffset - pre.length)) pre = some buffer :=
    ⟨_, writeBytes_of_le (by omega)⟩
  have hlen := length_writeBytes hw
  have hdrop := drop_writeBytes hw
  rw [show d.data + (d.currentOffset - pre.length) + pre.length = d.data + d.currentOffset by omega,
    h.drop, ← List.append_assoc] at hdrop
  refine ⟨{ d with buffer, currentOffset := d.currentOffset - pre.length }, ?_, ⟨?_, ?_, ?_⟩,
    ⟨rfl, rfl, rfl, hlen⟩⟩
  · simp only [write, hw, Option.map_some]
  · show d.currentOffset - pre.length ≤ d.size
    omega
  · show d.data + d.size ≤ buffer.length
    rw [hlen]
    exact hb
  · refine slice_of_drop hdrop ?_
    rw [List.length_append, h.length]
    dsimp only
    omega

/-- Bytes written behind what a descriptor holds. -/
theorem Holds.append (h : d.Holds bs) (post : List UInt8)
    (hn : d.data + d.size + post.length ≤ d.buffer.length) :
    ∃ d', d.write (d.data + d.size) post = some d' ∧
      ({ d' with size := d'.size + post.length } : TxBufferDescriptor).Holds (bs ++ post) ∧
      d.Behind d' 0 := by
  have ho := h.offset
  obtain ⟨buffer, hw⟩ : ∃ buffer, writeBytes d.buffer (d.data + d.size) post = some buffer :=
    ⟨_, writeBytes_of_le hn⟩
  have hlen := length_writeBytes hw
  have hlength := h.length
  -- the written bytes follow those that are kept
  have hdrop : buffer.drop (d.data + d.currentOffset) =
      bs ++ post ++ d.buffer.drop (d.data + d.size + post.length) := by
    have htake := take_writeBytes hw
    have hpost := drop_writeBytes hw
    have hkeep : (buffer.drop (d.data + d.currentOffset)).take (d.size - d.currentOffset) = bs := by
      have hend : d.data + d.currentOffset + (d.size - d.currentOffset) = d.data + d.size := by
        omega
      rw [← h.content, TxBufferDescriptor.content, slice, List.take_drop, List.take_drop, hend,
        htake]
    have hsplit := List.take_append_drop (d.size - d.currentOffset)
      (buffer.drop (d.data + d.currentOffset))
    rw [hkeep, List.drop_drop, show d.data + d.currentOffset + (d.size - d.currentOffset) =
      d.data + d.size by omega, hpost, ← List.append_assoc] at hsplit
    exact hsplit.symm
  refine ⟨{ d with buffer }, ?_, ⟨?_, ?_, ?_⟩, ⟨rfl, rfl, rfl, hlen⟩⟩
  · simp only [write, hw, Option.map_some]
  · show d.currentOffset ≤ d.size + post.length
    omega
  · show d.data + (d.size + post.length) ≤ buffer.length
    omega
  · refine slice_of_drop hdrop ?_
    rw [List.length_append, hlength]
    dsimp only
    omega

/-- An array in what the descriptor holds is read back. -/
theorem Holds.read (h : d.Holds bs) {k n : Nat} (pre : List UInt8) {rest : List UInt8}
    {b : FixedBytes n} (hn : 0 < n) (hbs : bs = pre ++ (b.toList ++ rest)) (hk : pre.length = k) :
    readBytes d.buffer (d.data + d.currentOffset + k) n = some b := by
  have hdrop : d.buffer.drop (d.data + d.currentOffset + k) =
      b.toList ++ (rest ++ d.buffer.drop (d.data + d.size)) := by
    rw [← List.drop_drop, h.drop, hbs, List.append_assoc, List.append_assoc, List.drop_left' hk]
  exact readBytes_of_drop hn hdrop

theorem Holds.skip (h : d.Holds bs) {n : Nat} (hn : n ≤ bs.length) :
    ({ d with currentOffset := d.currentOffset + n } : TxBufferDescriptor).Holds (bs.drop n) := by
  have hl := h.length
  have ho := h.offset
  refine ⟨by show d.currentOffset + n ≤ d.size; omega, h.bounds, ?_⟩
  have hdrop : d.buffer.drop (d.data + (d.currentOffset + n)) =
      bs.drop n ++ d.buffer.drop (d.data + d.size) := by
    rw [← Nat.add_assoc, ← List.drop_drop, h.drop, List.drop_append_of_le_length hn]
  refine slice_of_drop hdrop ?_
  rw [List.length_drop]
  dsimp only
  omega

/-- The pointer goes back to where the driver has put it. -/
theorem Holds.rebase (h : d.Holds bs) {n : Nat} (hn : n ≤ d.data) :
    ({ d with data := d.data - n, size := d.size + n, currentOffset := d.currentOffset + n } :
      TxBufferDescriptor).Holds bs := by
  have ho := h.offset
  have hb := h.bounds
  refine ⟨by show d.currentOffset + n ≤ d.size + n; omega,
    by show d.data - n + (d.size + n) ≤ d.buffer.length; omega, ?_⟩
  rw [← h.content]
  show slice d.buffer (d.data - n + (d.currentOffset + n)) (d.size + n - (d.currentOffset + n)) = _
  rw [show d.data - n + (d.currentOffset + n) = d.data + d.currentOffset by omega,
    show d.size + n - (d.currentOffset + n) = d.size - d.currentOffset by omega]
  rfl

/-- The space that is reserved holds what happens to be there. -/
theorem Holds.reserve (h : d.Holds bs) {n : Nat} (hn : n ≤ d.currentOffset) :
    ∃ old, old.length = n ∧
      ({ d with currentOffset := d.currentOffset - n } : TxBufferDescriptor).Holds (old ++ bs) := by
  have ho := h.offset
  have hb := h.bounds
  have hlen : (slice d.buffer (d.data + (d.currentOffset - n)) n).length = n :=
    length_slice (by omega)
  refine ⟨_, hlen, by show d.currentOffset - n ≤ d.size; omega, hb, ?_⟩
  have hsplit := slice_append d.buffer (d.data + (d.currentOffset - n)) n (d.size - d.currentOffset)
  rw [show d.data + (d.currentOffset - n) + n = d.data + d.currentOffset by omega] at hsplit
  rw [← h.content]
  show slice d.buffer (d.data + (d.currentOffset - n)) (d.size - (d.currentOffset - n)) = _
  rw [show d.size - (d.currentOffset - n) = n + (d.size - d.currentOffset) by omega, hsplit]
  rfl

theorem writeBytes_middle (x y : List UInt8) {old new : List UInt8}
    (hlen : new.length = old.length) :
    writeBytes (x ++ (old ++ y)) x.length new = some (x ++ (new ++ y)) := by
  have hle : x.length + new.length ≤ (x ++ (old ++ y)).length := by
    simp only [List.length_append]
    omega
  have hdrop : (x ++ (old ++ y)).drop (x.length + new.length) = y := by
    rw [← List.drop_drop, List.drop_left, List.drop_left' hlen.symm]
  rw [writeBytes_of_le hle, List.take_left, hdrop, List.append_assoc]

/-- A write over a part of what the descriptor holds. -/
theorem Holds.overwrite {pre old post new : List UInt8} (h : d.Holds (pre ++ (old ++ post)))
    (hlen : new.length = old.length) :
    ∃ d', d.write (d.data + d.currentOffset + pre.length) new = some d' ∧
      d'.Holds (pre ++ (new ++ post)) ∧ d.Behind d' 0 := by
  have ho := h.offset
  have hb := h.bounds
  have hl := h.length
  have htake : (d.buffer.take (d.data + d.currentOffset)).length = d.data + d.currentOffset := by
    rw [List.length_take]
    omega
  -- the buffer in front of, at and behind the place
  have hbuffer : d.buffer = d.buffer.take (d.data + d.currentOffset) ++ pre ++
      (old ++ (post ++ d.buffer.drop (d.data + d.size))) := by
    have hsplit := List.take_append_drop (d.data + d.currentOffset) d.buffer
    rw [h.drop] at hsplit
    simpa only [List.append_assoc] using hsplit.symm
  have hw := writeBytes_middle (d.buffer.take (d.data + d.currentOffset) ++ pre)
    (post ++ d.buffer.drop (d.data + d.size)) hlen
  rw [← hbuffer, List.length_append, htake] at hw
  obtain ⟨buffer, hbuffer'⟩ : ∃ buffer, buffer = d.buffer.take (d.data + d.currentOffset) ++ pre ++
      (new ++ (post ++ d.buffer.drop (d.data + d.size))) := ⟨_, rfl⟩
  rw [← hbuffer'] at hw
  have hlength := length_writeBytes hw
  refine ⟨{ d with buffer }, by simp only [write, hw, Option.map_some], ⟨ho, ?_, ?_⟩,
    ⟨rfl, rfl, rfl, hlength⟩⟩
  · rw [hlength]
    exact hb
  · have hdrop : buffer.drop (d.data + d.currentOffset) =
        pre ++ (new ++ post) ++ d.buffer.drop (d.data + d.size) := by
      rw [hbuffer', List.append_assoc, List.drop_left' htake]
      simp only [List.append_assoc]
    refine slice_of_drop hdrop ?_
    rw [← hl]
    simp only [List.length_append, hlen]

end TxBufferDescriptor

end U80211
