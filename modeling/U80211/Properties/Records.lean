import U80211.Properties.RingQueue
import U80211.Scan

/-!
# The records in the ring buffer of a scan

A probe response is written in two pieces and read in two pieces, the second of which has the size
that the first one tells.

* `processResponse_of_stores`: a response that is stored is stored as a whole
* `drain_record`, `readRsn_record`: the two reads give a record back
-/

namespace U80211

open Memory WorkQueue

/-! ## Channels -/

/-- `next_channel` goes up, and ends at 14. -/
theorem nextChannel_cases {c : Nat} (h : c ≤ channelCount) :
    nextChannel c = some none ∨
      ∃ channel, nextChannel c = some (some channel) ∧ c < channel ∧ channel ≤ channelCount := by
  have hall : ∀ c ≤ channelCount, (match nextChannel c with
      | none => false
      | some none => true
      | some (some channel) => decide (c < channel ∧ channel ≤ channelCount)) = true := by decide
  have hc := hall c h
  split at hc
  · cases hc
  · next hn => exact Or.inl hn
  · next channel hn => exact Or.inr ⟨channel, hn, decide_eq_true_eq.mp hc⟩

/-! ## One record -/

/-- A response as it is stored while the scan is on a channel. -/
def BeaconData.stamped (beacon : BeaconData) (channel : Nat) : BeaconData :=
  { beacon with channel := if beacon.channel = 0 then UInt8.ofNat channel else beacon.channel }

/-- What is stored of a response. -/
structure Record where
  beacon : BeaconData
  pointer : BeaconPointer

/-- The two pieces of a record. -/
def Record.bytes (r : Record) : List UInt8 := r.beacon.bytes r.pointer ++ r.beacon.rsn

/-- The data without the RSN element. -/
def BeaconData.head (beacon : BeaconData) : BeaconData := { beacon with rsn := [] }

theorem length_beaconBytes (beacon : BeaconData) (pointer : BeaconPointer) :
    (beacon.bytes pointer).length = beaconDataSize := by
  simp only [BeaconData.bytes, List.length_append, FixedBytes.length_toList, length_serializeLe16,
    length_leBytes, List.length_singleton]
  rfl

theorem Record.length_bytes (r : Record) :
    r.bytes.length = beaconDataSize + r.beacon.rsn.length := by
  rw [Record.bytes, List.length_append, length_beaconBytes]

/-- The first piece is read back. -/
theorem readBeacon_bytes (beacon : BeaconData) (pointer : BeaconPointer)
    (hrsn : beacon.rsn.length < 2 ^ 64) :
    readBeacon (beacon.bytes pointer) = some (beacon.head, UInt64.ofNat beacon.rsn.length) := by
  have h₀ : beacon.bytes pointer = beacon.macAddress.toList ++ (serializeLe16 beacon.interval ++
      (serializeLe16 beacon.capabilities ++ ([beacon.channel] ++ (beacon.rateBitmap.toList ++
        (beacon.ssid.toList ++ (pointer.padding.toList ++ (pointer.rsn.toList ++
          leBytes 8 beacon.rsn.length))))))) := by
    simp only [BeaconData.bytes, List.append_assoc]
  generalize beacon.bytes pointer = record at h₀
  have h₆ := drop_of_append h₀ beacon.macAddress.length_toList
  have h₈ := drop_of_append h₆ (length_serializeLe16 _)
  have h₁₀ := drop_of_append h₈ (length_serializeLe16 _)
  have h₁₁ := drop_of_append h₁₀ List.length_singleton
  have h₂₇ := drop_of_append h₁₁ beacon.rateBitmap.length_toList
  have h₆₀ := drop_of_append h₂₇ beacon.ssid.length_toList
  have h₆₄ := drop_of_append h₆₀ pointer.padding.length_toList
  have h₇₂ := drop_of_append h₆₄ pointer.rsn.length_toList
  simp only [List.drop_drop, Nat.reduceAdd] at h₈ h₁₀ h₁₁ h₂₇ h₆₀ h₆₄ h₇₂
  have hchannel : record[10]? = some beacon.channel := by
    have hhead := congrArg (·[0]?) h₁₀
    simpa using hhead
  have hsize : readBytes record 72 8 = some ⟨leBytes 8 beacon.rsn.length, length_leBytes _ _⟩ := by
    rw [← List.append_nil (leBytes 8 beacon.rsn.length)] at h₇₂
    exact readBytes_of_drop (by decide) h₇₂
  have hmac : readBytes record 0 6 = some beacon.macAddress :=
    readBytes_of_drop (by decide) h₀
  rw [readBeacon, hmac, deserializeLe16_serializeLe16 h₆, deserializeLe16_serializeLe16 h₈,
    hchannel, readBytes_of_drop (by decide) h₁₁, readBytes_of_drop (by decide) h₂₇, hsize]
  simp only [Option.bind_eq_bind, Option.bind_some, leValue_leBytes]
  rw [Nat.mod_eq_of_lt (by omega)]
  rfl

namespace ScanState

variable {o : ScanState} {beacon : BeaconData} {q : List UInt8}

/-! ## Writing -/

/-- The checks of `u80211_scan_process_response`. -/
def Stores (o : ScanState) (beacon : BeaconData) : Prop :=
  o.receiving = true ∧ beacon.rsn.length ≤ maxRsnSize ∧
    beaconDataSize + beacon.rsn.length ≤ o.buffer.freeSpace.toNat

instance (o : ScanState) (beacon : BeaconData) : Decidable (o.Stores beacon) :=
  inferInstanceAs (Decidable (_ ∧ _))

/-- A response that is not stored changes nothing. -/
theorem processResponse_of_not_stores (h : ¬ o.Stores beacon) (pointer : BeaconPointer) :
    o.processResponse beacon pointer = some o := by
  unfold processResponse
  split
  · rfl
  · next hn =>
    rw [not_or, Bool.not_eq_false, Nat.not_lt] at hn
    refine if_pos (Nat.lt_of_not_le fun hle => h ⟨hn.1, hn.2, hle⟩)

/-- A response that is stored is stored as a whole. -/
theorem processResponse_of_stores (h : o.Stores beacon) (hq : o.buffer.Holds q)
    (pointer : BeaconPointer)
    (hwrap : o.buffer.write.toNat + (beaconDataSize + beacon.rsn.length) < 2 ^ 64) :
    ∃ buffer, o.processResponse beacon pointer = some { o with buffer } ∧
      buffer.Holds (q ++ Record.bytes ⟨beacon.stamped o.currentChannel, pointer⟩) ∧
      buffer.size = o.buffer.size ∧ buffer.read = o.buffer.read := by
  obtain ⟨hreceiving, hsize, hfree⟩ := h
  have hroom := hq.freeSpace
  have hlength := length_beaconBytes (beacon.stamped o.currentChannel) pointer
  have hcount : (UInt64.ofNat beaconDataSize).toNat = beaconDataSize := rfl
  have hrsn : (UInt64.ofNat beacon.rsn.length).toNat = beacon.rsn.length := by
    rw [UInt64.toNat_ofNat', Nat.mod_eq_of_lt (by omega)]
  obtain ⟨b₁, n₁, hb₁, hn₁, hholds₁, hw₁⟩ := RingBuffer.write_spec hq
    ((beacon.stamped o.currentChannel).bytes pointer) (UInt64.ofNat beaconDataSize) (by omega)
    (by omega)
  rw [Nat.min_eq_left (by omega)] at hn₁
  rw [List.take_of_length_le (by omega)] at hholds₁
  have hwrite₁ := hw₁.write
  have hroom₁ := hholds₁.freeSpace
  rw [hw₁.size, List.length_append, hlength] at hroom₁
  obtain ⟨b₂, n₂, hb₂, hn₂, hholds₂, hw₂⟩ := RingBuffer.write_spec hholds₁
    beacon.rsn (UInt64.ofNat beacon.rsn.length) (by omega)
    (by rw [List.length_append, hlength, hw₁.size]; omega)
  rw [List.length_append, hlength, hw₁.size, Nat.min_eq_left (by omega)] at hn₂
  rw [List.take_of_length_le (by omega), List.append_assoc] at hholds₂
  refine ⟨b₂, ?_, hholds₂, hw₂.size.trans hw₁.size, hw₂.read.trans hw₁.read⟩
  unfold processResponse
  rw [if_neg (by rw [not_or, Bool.not_eq_false, Nat.not_lt]; exact ⟨hreceiving, hsize⟩),
    if_neg (Nat.not_lt.mpr hfree)]
  exact (congrArg (Option.bind · _) hb₁).trans (congrArg (Option.bind · _) hb₂)

/-! ## Reading -/

/-- The loop ends at an empty buffer. -/
theorem drain_empty (hq : o.buffer.Holds []) :
    o.drain = o.leaveDrain.map fun pc => (o, pc) := by
  refine if_pos ?_
  rw [hq.dataCount]
  decide

/-- The first read takes the first piece of a record. -/
theorem drain_record {r : Record} (hq : o.buffer.Holds (r.bytes ++ q))
    (hr : r.beacon.rsn.length ≤ maxRsnSize) :
    ∃ buffer, o.drain = some ({ o with buffer },
        .readRsn r.beacon.head (UInt64.ofNat r.beacon.rsn.length)) ∧
      buffer.Holds (r.beacon.rsn ++ q) ∧ buffer.size = o.buffer.size ∧
      buffer.write = o.buffer.write := by
  have hmax : maxRsnSize < 2 ^ 64 := by decide
  have hcount : (UInt64.ofNat beaconDataSize).toNat = beaconDataSize := rfl
  have hlength := length_beaconBytes r.beacon r.pointer
  rw [Record.bytes, List.append_assoc] at hq
  obtain ⟨b, hb, hholds, hsize, hwrite, -⟩ :=
    RingBuffer.read_spec hq (UInt64.ofNat beaconDataSize)
  rw [hcount, List.take_left' hlength] at hb
  rw [hcount, List.drop_left' hlength] at hholds
  refine ⟨b, ?_, hholds, hsize, hwrite⟩
  unfold drain
  rw [if_neg (by rw [hq.dataCount, List.length_append, hlength]; omega)]
  refine (congrArg (Option.bind · _) hb).trans ?_
  refine (if_neg (not_not_intro hlength)).trans ?_
  exact congrArg (Option.bind · _) (readBeacon_bytes r.beacon r.pointer (by omega))

/-- The second read takes the rest of the record. -/
theorem read_rsn (hq : o.buffer.Holds (beacon.rsn ++ q)) (hr : beacon.rsn.length ≤ maxRsnSize) :
    ∃ buffer, ringbufferRead o.buffer (UInt64.ofNat beacon.rsn.length) =
        some (buffer, beacon.rsn) ∧
      buffer.Holds q ∧ buffer.size = o.buffer.size ∧ buffer.write = o.buffer.write := by
  have hmax : maxRsnSize < 2 ^ 64 := by decide
  have hcount : (UInt64.ofNat beacon.rsn.length).toNat = beacon.rsn.length := by
    rw [UInt64.toNat_ofNat', Nat.mod_eq_of_lt (by omega)]
  obtain ⟨b, hb, hholds, hsize, hwrite, -⟩ :=
    RingBuffer.read_spec hq (UInt64.ofNat beacon.rsn.length)
  rw [hcount, List.take_left' rfl] at hb
  rw [hcount, List.drop_left' rfl] at hholds
  exact ⟨b, hb, hholds, hsize, hwrite⟩

/-- Then the record is complete, and `scan_work` looks at its channel and its address. -/
theorem readRsn_record {buffer : RingBuffer} (hr : beacon.rsn.length ≤ maxRsnSize)
    (hread : ringbufferRead o.buffer (UInt64.ofNat beacon.rsn.length) =
      some (buffer, beacon.rsn)) :
    o.readRsn beacon.head (UInt64.ofNat beacon.rsn.length) = some ({ o with buffer }, .ok
      (if beacon.channel.toNat ≠ o.currentChannel ∨ validBssid beacon.macAddress = false then none
        else some beacon)) := by
  have hmax : maxRsnSize < 2 ^ 64 := by decide
  have hcount : (UInt64.ofNat beacon.rsn.length).toNat = beacon.rsn.length := by
    rw [UInt64.toNat_ofNat', Nat.mod_eq_of_lt (by omega)]
  unfold readRsn
  refine (congrArg (Option.bind · _) hread).trans ?_
  refine (if_neg (Nat.not_lt.mpr hr)).trans ?_
  refine (if_neg (not_not_intro hcount.symm)).trans ?_
  by_cases hskip : beacon.channel.toNat ≠ o.currentChannel ∨ validBssid beacon.macAddress = false
  · rw [if_pos hskip]
    exact if_pos hskip
  · rw [if_neg hskip]
    exact if_neg hskip

end ScanState

end U80211
