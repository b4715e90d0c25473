import U80211.Basic

/-!
# `src/ringbuffer.c`

The counters are 64 bits wide and wrap as those of the source do. A copy outside of the data area
or outside of the caller's buffer answers `none`, and so does a position modulo a size of zero.
-/

namespace U80211

open Memory

/-- `u80211_ringbuffer_t` -/
structure RingBuffer where
  size : UInt64
  write : UInt64
  read : UInt64
  /-- the bytes of the data area, which ends at `size` -/
  data : Nat → UInt8

namespace RingBuffer

/-- `U80211_RINGBUFFER_DATA_COUNT` -/
def dataCount (b : RingBuffer) : UInt64 := b.write - b.read

/-- `U80211_RINGBUFFER_FREE_SPACE` -/
def freeSpace (b : RingBuffer) : UInt64 := b.size - b.dataCount

/-- `u80211_memcpy` out of the data area. -/
def load (b : RingBuffer) (offset count : UInt64) : Option (List UInt8) :=
  if offset.toNat + count.toNat ≤ b.size.toNat then
    some ((List.range count.toNat).map fun i => b.data (offset.toNat + i))
  else none

/-- `u80211_memcpy` into the data area. -/
def store (b : RingBuffer) (offset : UInt64) (bytes : List UInt8) : Option RingBuffer :=
  if offset.toNat + bytes.length ≤ b.size.toNat then
    some { b with
      data := fun i =>
        if offset.toNat ≤ i ∧ i < offset.toNat + bytes.length then
          bytes.getD (i - offset.toNat) 0
        else b.data i }
  else none

end RingBuffer

/-- `u80211_ringbuffer_init`, given the memory that is allocated, if it is. -/
def ringbufferInit (size : UInt64) (memory : Option (Nat → UInt8)) : Except Status RingBuffer :=
  if size = 0 then .error .notEnoughSpace
  else
    match memory with
    | none => .error .enomem
    | some data => .ok { size, write := 0, read := 0, data }

/-- `u80211_ringbuffer_read`: what it has copied to the caller's buffer. -/
def ringbufferRead (b : RingBuffer) (count : UInt64) : Option (RingBuffer × List UInt8) :=
  if b.size = 0 then none
  else do
    let count := min count b.dataCount
    let firstPassOffset := b.read % b.size
    let firstPassRemaining := b.size - firstPassOffset
    let firstPassCount := min count firstPassRemaining
    let first ← b.load firstPassOffset firstPassCount
    let second ← if firstPassCount ≠ count then b.load 0 (count - firstPassCount) else some []
    some ({ b with read := b.read + count }, first ++ second)

/-- `u80211_ringbuffer_truncate` -/
def ringbufferTruncate (b : RingBuffer) (count : UInt64) : RingBuffer × UInt64 :=
  let trueCount := min b.dataCount count
  ({ b with read := b.read + trueCount }, trueCount)

/-- `u80211_ringbuffer_peek`: what it has copied to the caller's buffer. -/
def ringbufferPeek (b : RingBuffer) (offset count : UInt64) : Option (List UInt8) :=
  let dataCount := b.dataCount
  if dataCount ≤ offset then some []
  else if b.size = 0 then none
  else do
    let read := b.read + offset
    let count := min count (dataCount - offset)
    let firstPassOffset := read % b.size
    let firstPassRemaining := b.size - firstPassOffset
    let firstPassCount := min count firstPassRemaining
    let first ← b.load firstPassOffset firstPassCount
    let second ← if firstPassCount ≠ count then b.load 0 (count - firstPassCount) else some []
    some (first ++ second)

/-- `u80211_ringbuffer_remove` -/
def ringbufferRemove (b : RingBuffer) (count : UInt64) : RingBuffer × UInt64 :=
  let trueCount := min b.dataCount count
  ({ b with write := b.write - trueCount }, trueCount)

/-- `u80211_ringbuffer_write`: the number of bytes that it has copied from the caller's buffer. -/
def ringbufferWrite (b : RingBuffer) (buffer : List UInt8) (count : UInt64) :
    Option (RingBuffer × UInt64) :=
  if b.size = 0 then none
  else do
    let count := min count b.freeSpace
    let firstPassOffset := b.write % b.size
    let firstPassRemaining := b.size - firstPassOffset
    let firstPassCount := min count firstPassRemaining
    let first ← readBytes buffer 0 firstPassCount.toNat
    let b ← b.store firstPassOffset first.toList
    let b ← if firstPassCount ≠ count then do
        let second ← readBytes buffer firstPassCount.toNat (count - firstPassCount).toNat
        b.store 0 second.toList
      else some b
    some ({ b with write := b.write + count }, count)

/-! ## Sequences of calls -/

/-- What a call answers. -/
inductive RingAnswer where
  | done
  | count (n : UInt64)
  | bytes (bytes : List UInt8)
deriving DecidableEq

/-- The calls. `write` comes with the bytes of the caller's buffer. -/
inductive RingAction where
  | write (buffer : List UInt8) (count : UInt64)
  | read (count : UInt64)
  | peek (offset count : UInt64)
  | truncate (count : UInt64)
  | remove (count : UInt64)

/-- The caller's buffer is as long as the caller says. -/
def RingAction.Allowed : RingAction → Prop
  | .write buffer count => count.toNat ≤ buffer.length
  | _ => True

instance (a : RingAction) : Decidable a.Allowed := by
  unfold RingAction.Allowed
  split <;> infer_instance

/-- A ring buffer and the answer of the last call. -/
structure RingSystem where
  buffer : RingBuffer
  answer : RingAnswer

namespace RingSystem

/-- After `u80211_ringbuffer_init` with memory of the given contents. -/
def init (size : UInt64) (memory : Nat → UInt8) : RingSystem where
  buffer := { size, write := 0, read := 0, data := memory }
  answer := .done

/-- A call; `none` when it would copy from or to a place outside of its buffers. -/
def step : RingAction → RingSystem → Option RingSystem
  | .write buffer count, s =>
    (ringbufferWrite s.buffer buffer count).map fun (b, n) => ⟨b, .count n⟩
  | .read count, s => (ringbufferRead s.buffer count).map fun (b, bytes) => ⟨b, .bytes bytes⟩
  | .peek offset count, s =>
    (ringbufferPeek s.buffer offset count).map fun bytes => ⟨s.buffer, .bytes bytes⟩
  | .truncate count, s =>
    let (b, n) := ringbufferTruncate s.buffer count
    some ⟨b, .count n⟩
  | .remove count, s =>
    let (b, n) := ringbufferRemove s.buffer count
    some ⟨b, .count n⟩

end RingSystem

end U80211
