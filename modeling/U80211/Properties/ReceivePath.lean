import U80211.Properties.Keys
import U80211.Receive

/-!
# What the receive path keeps

* `processProtection_spec`: removing a cipher header changes nothing of the device but its keys
* `processDataPacket_eq`: the Ethernet header is written in front of the payload
* `processPacket_received`: what becomes of a packet
* `processPacket_stays_inside`: **no packet makes the receive path leave the packet**
-/

namespace U80211

open Memory

/-! ## Headers -/

/-- A header that is read ends inside of the packet, and the data is the rest of it. -/
structure Deserialized.Within (r : Deserialized) (packet : List UInt8) : Prop where
  start : 24 ≤ r.dataStart
  size : r.dataStart + r.dataSize = packet.length

/-- A header whose second part has `n` bytes ends inside of the packet. -/
theorem within_rest {packet : List UInt8} {header : HeaderDescription} {n : Nat} (hn : 14 ≤ n)
    (h : 10 ≤ packet.length) (hlen : n ≤ packet.length - 10) :
    Deserialized.Within ⟨header, 10 + n, packet.length - 10 - n⟩ packet where
  start := by show 24 ≤ 10 + n; omega
  size := by show 10 + n + (packet.length - 10 - n) = packet.length; omega

/-- The fields that both kinds of headers have after the first address. -/
theorem reads_of_le {packet : List UInt8} (h : 24 ≤ packet.length) :
    ∃ address2 address3 sequenceControl, readBytes packet 10 6 = some address2 ∧
      readBytes packet (10 + 6) 6 = some address3 ∧
      deserializeLe16 packet (10 + 12) = some sequenceControl :=
  ⟨_, _, _, readBytes_of_le (by omega), readBytes_of_le (by omega),
    deserializeLe16_of_le (by omega)⟩

/-- The parse of a management header stays inside the packet. -/
theorem deserializeManagementHeader_spec {packet : List UInt8} (h : 10 ≤ packet.length)
    (header : HeaderDescription) :
    ∃ r, deserializeManagementHeader packet 10 (packet.length - 10) header = some r ∧
      ∀ d, r = .ok d → d.Within packet := by
  unfold deserializeManagementHeader
  split
  · exact ⟨_, rfl, fun d hd => by cases hd⟩
  · next hlen =>
    obtain ⟨address2, address3, sequenceControl, h₂, h₃, hs⟩ :=
      reads_of_le (show 24 ≤ packet.length by omega)
    simp only [h₂, h₃, hs, subtractSize_of_le (Nat.not_lt.mp hlen), Option.bind_eq_bind,
      Option.bind_some]
    refine ⟨_, rfl, ?_⟩
    intro d hd
    cases hd
    exact within_rest (n := 14) (by decide) h (Nat.not_lt.mp hlen)

/-- So does that of a data header. -/
theorem deserializeDataHeader_spec {packet : List UInt8} (h : 10 ≤ packet.length)
    (header : HeaderDescription) :
    ∃ r, deserializeDataHeader packet 10 (packet.length - 10) header = some r ∧
      ∀ d, r = .ok d → d.Within packet := by
  dsimp only [deserializeDataHeader]
  split
  · exact ⟨_, rfl, fun d hd => by cases hd⟩
  · cases hfour : header.isFourAddress with
    | false =>
      simp only [Bool.false_eq_true, if_false, Nat.reduceEqDiff]
      split
      · exact ⟨_, rfl, fun d hd => by cases hd⟩
      · next hlen =>
        obtain ⟨address2, address3, sequenceControl, h₂, h₃, hs⟩ :=
          reads_of_le (show 24 ≤ packet.length by omega)
        simp only [h₂, h₃, hs, subtractSize_of_le (Nat.not_lt.mp hlen), Option.bind_eq_bind,
          Option.bind_some]
        refine ⟨_, rfl, ?_⟩
        intro d hd
        cases hd
        exact within_rest (n := 14) (by decide) h (Nat.not_lt.mp hlen)
    | true =>
      simp only [if_true]
      split
      · exact ⟨_, rfl, fun d hd => by cases hd⟩
      · next hlen =>
        obtain ⟨address2, address3, sequenceControl, h₂, h₃, hs⟩ :=
          reads_of_le (show 24 ≤ packet.length by omega)
        simp only [h₂, h₃, hs, readBytes_of_le (show 10 + 14 + 6 ≤ packet.length by omega),
          subtractSize_of_le (Nat.not_lt.mp hlen), Option.bind_eq_bind, Option.bind_some]
        refine ⟨_, rfl, ?_⟩
        intro d hd
        cases hd
        exact within_rest (n := 20) (by decide) h (Nat.not_lt.mp hlen)

/-- Every packet is parsed, and what is accepted lies inside it. -/
theorem deserializeHeader_spec (packet : List UInt8) :
    ∃ r, deserializeHeader packet = some r ∧ ∀ d, r = .ok d → d.Within packet := by
  unfold deserializeHeader
  split
  · exact ⟨_, rfl, fun d hd => by cases hd⟩
  · next hlen =>
    have hlen : 10 ≤ packet.length := Nat.not_lt.mp hlen
    simp only [deserializeLe16_of_le (show 0 + 2 ≤ packet.length by omega),
      deserializeLe16_of_le (show 2 + 2 ≤ packet.length by omega),
      readBytes_of_le (show 4 + 6 ≤ packet.length by omega), subtractSize_of_le hlen,
      Option.bind_eq_bind, Option.bind_some]
    split
    · exact deserializeManagementHeader_spec hlen _
    · split
      · exact ⟨_, rfl, fun d hd => by cases hd⟩
      · split
        · exact deserializeDataHeader_spec hlen _
        · exact ⟨_, rfl, fun d hd => by cases hd⟩

theorem deserializeHeader_within {packet : List UInt8} {r : Deserialized}
    (h : deserializeHeader packet = some (.ok r)) : r.Within packet := by
  obtain ⟨_, he, hin⟩ := deserializeHeader_spec packet
  exact hin r (Option.some.inj (he.symm.trans h))

/-! ## Protection -/

theorem keyValidateTkipRx_isSome (own : MacAddress) (keys : List KeyMetadata) (data : TkipData)
    (sequence : FixedBytes 6) (mic : FixedBytes 8) :
    ∃ r, keyValidateTkipRx own keys data sequence mic = some r := by
  rcases keyValidateTkipRx_spec own keys data sequence mic with ⟨_, _, -, -, -, he⟩ | ⟨he, -⟩
  · exact ⟨_, he⟩
  · exact ⟨_, he⟩

/-- What is left of the data lies in what there was, and only the keys of the device differ. -/
structure CipherRx.Within (r : CipherRx) (device : Device) (data dataSize : Nat) : Prop where
  device : r.1 = { device with keys := r.1.keys }
  start : data ≤ r.2.1
  size : r.2.1 + r.2.2 ≤ data + dataSize

variable {device : Device} {packet : List UInt8} {header : HeaderDescription} {keyIndex : UInt8}
  {data dataSize : Nat}

/-- The CCMP path reads only what is there. -/
theorem processCcmpRx_spec (h : data + dataSize ≤ packet.length) :
    ∃ r, processCcmpRx device packet header keyIndex data dataSize = some r ∧
      ∀ rx, r = some rx → CipherRx.Within rx device data dataSize := by
  unfold processCcmpRx ccmpHeaderSize ccmpMicSize
  split
  · exact ⟨_, rfl, fun rx hrx => by cases hrx⟩
  · next hlen =>
    simp only [readBytes_of_le (show data + 8 ≤ packet.length by omega), Option.bind_eq_bind,
      Option.bind_some, subtractSize_of_le (Nat.not_lt.mp hlen)]
    split
    · exact ⟨_, rfl, fun rx hrx => by cases hrx⟩
    · split
      · exact ⟨_, rfl, fun rx hrx => by cases hrx⟩
      · refine ⟨_, rfl, ?_⟩
        intro rx hrx
        cases hrx
        exact ⟨rfl, by dsimp only; omega, by dsimp only; omega⟩

/-- So does the TKIP path. -/
theorem processTkipRx_spec (h : data + dataSize ≤ packet.length) :
    ∃ r, processTkipRx device packet header keyIndex data dataSize = some r ∧
      ∀ rx, r = some rx → CipherRx.Within rx device data dataSize := by
  unfold processTkipRx tkipHeaderSize tkipMicSize tkipIcvSize
  split
  · exact ⟨_, rfl, fun rx hrx => by cases hrx⟩
  · split
    · exact ⟨_, rfl, fun rx hrx => by cases hrx⟩
    · split
      · exact ⟨_, rfl, fun rx hrx => by cases hrx⟩
      · next hlen =>
        simp only [readBytes_of_le (show data + 8 ≤ packet.length by omega), Option.bind_eq_bind,
          Option.bind_some]
        split
        · exact ⟨_, rfl, fun rx hrx => by cases hrx⟩
        · split
          · exact ⟨_, rfl, fun rx hrx => by cases hrx⟩
          · simp only [subtractSize_of_le (Nat.not_lt.mp hlen),
              readBytes_of_le (show data + 8 + (dataSize - (8 + 8 + 4)) ≤ packet.length by omega),
              readBytes_of_le (
                show data + 8 + (dataSize - (8 + 8 + 4)) + 8 ≤ packet.length by omega),
              Option.bind_some]
            obtain ⟨r, hr⟩ := keyValidateTkipRx_isSome device.macAddress device.keys
              { header, keyIndex
                destination := (dataPacketAddresses header).1
                source := (dataPacketAddresses header).2
                priority := 0
                data := slice packet (data + 8) (dataSize - (8 + 8 + 4)) }
              (tkipSequence ⟨slice packet data 8, length_slice (by omega)⟩)
              ⟨slice packet (data + 8 + (dataSize - (8 + 8 + 4))) 8, length_slice (by omega)⟩
            rw [hr, Option.bind_some]
            split
            · exact ⟨_, rfl, fun rx hrx => by cases hrx⟩
            · refine ⟨_, rfl, ?_⟩
              intro rx hrx
              cases hrx
              exact ⟨rfl, by dsimp only; omega, by dsimp only; omega⟩

/-- Whatever the cipher is, the data that is left lies inside the packet. -/
theorem processCipherRx_spec (h : data + dataSize ≤ packet.length) (cipher : Option Cipher) :
    ∃ r, processCipherRx device packet header keyIndex data dataSize cipher = some r ∧
      ∀ rx, r = some rx → CipherRx.Within rx device data dataSize := by
  unfold processCipherRx
  split
  · exact processCcmpRx_spec h
  · exact processTkipRx_spec h
  · exact ⟨_, rfl, fun rx hrx => by cases hrx⟩

theorem deserializeCipherKeyIndex_isSome (h : data + dataSize ≤ packet.length) :
    ∃ r, deserializeCipherKeyIndex packet data dataSize = some r := by
  unfold deserializeCipherKeyIndex
  split
  · exact ⟨_, rfl⟩
  · next hlen =>
    have hlt : data + 3 < packet.length := by omega
    simp only [List.getElem?_eq_getElem hlt, Option.bind_eq_bind, Option.bind_some]
    exact ⟨_, rfl⟩

/-- **Removing a cipher header stays inside of the packet and changes no more than the keys.** -/
theorem processProtection_spec (h : data + dataSize ≤ packet.length) :
    ∃ r, processProtection device packet header data dataSize = some r ∧
      ∀ rx, r = some rx → CipherRx.Within rx device data dataSize := by
  unfold processProtection
  split
  · obtain ⟨r, hr⟩ := deserializeCipherKeyIndex_isSome h
    rw [hr, Option.bind_eq_bind, Option.bind_some]
    cases r with
    | none => exact ⟨_, rfl, fun rx hrx => by cases hrx⟩
    | some keyIndex => exact processCipherRx_spec h _
  · refine ⟨_, rfl, ?_⟩
    intro rx hrx
    cases hrx
    exact ⟨rfl, Nat.le_refl _, Nat.le_refl _⟩

/-! ## Data frames -/

/-- The addresses of the Ethernet header are those that are fed to the integrity code. -/
theorem dataPacketAddresses_eq (header : HeaderDescription) :
    dataPacketAddresses header =
      (if hasFlag header.frameControl frameControlToDs then header.address3 else header.address1,
        if hasFlag header.frameControl frameControlToDs then
          (if hasFlag header.frameControl frameControlFromDs then header.address4
            else header.address2)
        else if hasFlag header.frameControl frameControlFromDs then header.address3
        else header.address2) := by
  rw [dataPacketAddresses]
  split <;> rfl

/-- **The Ethernet header is written inside of the packet**, in front of what follows the LLC/SNAP
header. -/
theorem processDataPacket_eq (hstart : 6 ≤ data) (h : data + dataSize ≤ packet.length) :
    processDataPacket packet header data dataSize =
      some (if 8 ≤ dataSize ∧ slice packet data 6 = byteHeader then
        some ((dataPacketAddresses header).1.toList ++ (dataPacketAddresses header).2.toList ++
          slice packet (data + 6) (dataSize - 6))
      else none) := by
  rw [dataPacketAddresses_eq]
  dsimp only
  generalize hdestination : (if hasFlag header.frameControl frameControlToDs then header.address3
    else header.address1) = destination
  generalize hsource : (if hasFlag header.frameControl frameControlToDs then
      (if hasFlag header.frameControl frameControlFromDs then header.address4 else header.address2)
    else if hasFlag header.frameControl frameControlFromDs then header.address3
    else header.address2) = source
  have hdst := destination.length_toList
  have hsrc := source.length_toList
  unfold processDataPacket llcSnapSize ethernetHeaderSize
  by_cases hlen : dataSize < 8
  · rw [if_pos hlen, if_neg (fun hok => absurd hok.1 (Nat.not_le.mpr hlen))]
  · rw [if_neg hlen]
    simp only [readBytes_of_le (show data + 6 ≤ packet.length by omega),
      readBytes_of_le (show data + 6 + 2 ≤ packet.length by omega), Option.bind_eq_bind,
      Option.bind_some]
    by_cases hbyte : slice packet data 6 = byteHeader
    · -- the three writes are one
      have hethertype : (slice packet (data + 6) 2).length = 2 := length_slice (by omega)
      obtain ⟨packet₃, hw⟩ : ∃ packet₃, writeBytes packet (data + 8 - 14)
          (destination.toList ++ source.toList ++ slice packet (data + 6) 2) = some packet₃ :=
        ⟨_, writeBytes_of_le (by simp only [List.length_append, hdst, hsrc, hethertype]; omega)⟩
      have hlength := length_writeBytes hw
      have hframe := slice_writeBytes hw (n := dataSize + 14 - 8) (by
        simp only [List.length_append, hdst, hsrc, hethertype]
        omega)
      rw [← writeBytes_append, ← writeBytes_append, List.length_append, hdst, hsrc,
        Option.bind_assoc] at hw
      obtain ⟨packet₁, hw₁, hw⟩ := Option.bind_eq_some_iff.mp hw
      obtain ⟨packet₂, hw₂, hw₃⟩ := Option.bind_eq_some_iff.mp hw
      simp only [hbyte, ne_eq, not_true_eq_false, if_false, Nat.not_lt.mp hlen, if_true,
        subtractSize_of_le (show 14 ≤ data + 8 by omega), and_true,
        subtractSize_of_le (show 8 ≤ dataSize + 14 by omega), Option.bind_some, hdestination,
        hsource, hw₁, hw₂, hw₃,
        readBytes_of_le (show data + 8 - 14 + (dataSize + 14 - 8) ≤ packet₃.length by omega)]
      rw [hframe]
      simp only [List.length_append, hdst, hsrc, hethertype]
      rw [show dataSize - 6 = 2 + (dataSize - 8) by omega, slice_append,
        show data + 8 - 14 + (6 + 6 + 2) = data + 6 + 2 by omega,
        show dataSize + 14 - 8 - (6 + 6 + 2) = dataSize - 8 by omega]
      simp only [List.append_assoc]
    · simp only [ne_eq, hbyte, not_false_eq_true, if_true, and_false, if_false]

/-! ## Packets -/

/-- The device with the packet counted. -/
def Device.counted (device : Device) : Device :=
  { device with packetCount := device.packetCount + 1 }

/-- The header has been read and the cipher header, if there is one, has been removed. -/
structure Accepted (device : Device) (packet : List UInt8) (header : HeaderDescription)
    (rx : CipherRx) : Prop where
  read : ∃ r, deserializeHeader packet = some (.ok r) ∧ r.header = header ∧
    r.dataStart ≤ rx.2.1 ∧
    processProtection device.counted packet header r.dataStart r.dataSize = some (some rx)
  device : rx.1 = { device.counted with keys := rx.1.keys }
  start : 24 ≤ rx.2.1
  size : rx.2.1 + rx.2.2 ≤ packet.length

/-- A packet that the key store refuses changes the counter only. -/
theorem processPacket_of_rejected {r : Deserialized}
    (h : deserializeHeader packet = some (.ok r))
    (hp : processProtection device.counted packet r.header r.dataStart r.dataSize = some none) :
    processPacket device packet = some (device.counted, []) := by
  rw [Device.counted] at hp
  simp only [processPacket, h, hp, Option.bind_eq_bind, Option.bind_some]
  rfl

section Accepted

variable {rx : CipherRx}

theorem Accepted.macAddress (ha : Accepted device packet header rx) :
    rx.1.macAddress = device.macAddress := by
  rw [ha.device]
  rfl

theorem Accepted.association (ha : Accepted device packet header rx) :
    rx.1.association = device.association := by
  rw [ha.device]
  rfl

theorem Accepted.references (ha : Accepted device packet header rx) :
    rx.1.references = device.references := by
  rw [ha.device]
  rfl

end Accepted

/-- What becomes of a packet, with the device and the effects afterwards. -/
inductive Received (device : Device) (packet : List UInt8) : Device → List ReceiveEffect → Prop
  | malformed {status : Status} (h : deserializeHeader packet = some (.error status)) :
      Received device packet device.counted []
  | rejected {r : Deserialized} (h : deserializeHeader packet = some (.ok r))
      (hp : processProtection device.counted packet r.header r.dataStart r.dataSize = some none) :
      Received device packet device.counted []
  | management {header : HeaderDescription} {rx : CipherRx} {plan : ManagementPlan}
      (ha : Accepted device packet header rx)
      (ht : frameControlGetType header.frameControl = frameControlTypeManagement)
      (hp : processManagementPacket rx.1.macAddress header (slice packet rx.2.1 rx.2.2) =
        some plan) :
      Received device packet (runPlan rx.1 header plan).1 (runPlan rx.1 header plan).2
  | unhandled {header : HeaderDescription} {rx : CipherRx} (ha : Accepted device packet header rx)
      (hm : frameControlGetType header.frameControl ≠ frameControlTypeManagement)
      (ht : frameControlGetType header.frameControl ≠ frameControlTypeData) :
      Received device packet rx.1 []
  | misaddressed {header : HeaderDescription} {rx : CipherRx}
      (ha : Accepted device packet header rx)
      (ht : frameControlGetType header.frameControl = frameControlTypeData)
      (hd : dataPacketForDevice rx.1.macAddress header = false) : Received device packet rx.1 []
  | duplicate {header : HeaderDescription} {rx : CipherRx} {association : Association}
      (ha : Accepted device packet header rx)
      (ht : frameControlGetType header.frameControl = frameControlTypeData)
      (hd : dataPacketForDevice rx.1.macAddress header = true)
      (hdup : associationIsDuplicate rx.1.association header .associated = (true, association)) :
      Received device packet { rx.1 with association } []
  | data {header : HeaderDescription} {rx : CipherRx} {association : Association}
      {frame : Option (List UInt8)} (ha : Accepted device packet header rx)
      (ht : frameControlGetType header.frameControl = frameControlTypeData)
      (hd : dataPacketForDevice rx.1.macAddress header = true)
      (hdup : associationIsDuplicate rx.1.association header .associated = (false, association))
      (hf : processDataPacket packet header rx.2.1 rx.2.2 = some frame) :
      Received device packet { rx.1 with association } (frame.toList.map .receiveCallback)

/-- **No packet makes the receive path leave the packet**, and one of the cases of `Received`
applies to it. -/
theorem processPacket_received (device : Device) (packet : List UInt8) :
    ∃ device' effects, processPacket device packet = some (device', effects) ∧
      Received device packet device' effects := by
  unfold processPacket
  obtain ⟨r, hr, hin⟩ := deserializeHeader_spec packet
  simp only [hr, Option.bind_eq_bind, Option.bind_some]
  cases r with
  | error status => exact ⟨_, _, rfl, .malformed hr⟩
  | ok r =>
    obtain ⟨hstart, hsize⟩ := hin r rfl
    obtain ⟨rx, hrx, hrin⟩ := @processProtection_spec device.counted packet r.header r.dataStart
      r.dataSize (Nat.le_of_eq hsize)
    rw [Device.counted] at hrx
    simp only [hrx, Option.bind_some]
    cases rx with
    | none => exact ⟨_, _, rfl, .rejected hr hrx⟩
    | some rx =>
      obtain ⟨hdev, hs, hl⟩ := hrin rx rfl
      have ha : Accepted device packet r.header rx :=
        ⟨⟨r, hr, rfl, hs, hrx⟩, hdev, by omega, by omega⟩
      obtain ⟨device', data, size⟩ := rx
      dsimp only at hs hl ⊢
      split
      · next ht =>
        obtain ⟨plan, hplan⟩ := processManagementPacket_isSome device'.macAddress r.header
          (slice packet data size)
        rw [readBytes_of_le (show data + size ≤ packet.length by omega), Option.bind_some, hplan]
        exact ⟨_, _, rfl, .management ha ht hplan⟩
      · next hm =>
        split
        · next ht =>
          split
          · next hd => exact ⟨_, _, rfl, .misaddressed ha ht (Bool.not_eq_true _ ▸ hd)⟩
          · next hd =>
            have hd := Decidable.not_not.mp hd
            split
            · next hdup => exact ⟨_, _, rfl, .duplicate ha ht hd hdup⟩
            · next hdup =>
              obtain ⟨frame, hframe⟩ : ∃ frame,
                  processDataPacket packet r.header data size = some frame :=
                ⟨_, processDataPacket_eq (by omega) (by omega)⟩
              rw [hframe]
              have hdata := Received.data ha ht hd hdup hframe
              cases frame <;> exact ⟨_, _, rfl, hdata⟩
        · next ht => exact ⟨_, _, rfl, .unhandled ha hm ht⟩

/-- **No packet makes the receive path leave the packet**, whatever its bytes and its length: no
access is outside of it or of the arrays that are filled from it, no size wraps, and every loop
ends. -/
theorem processPacket_stays_inside (device : Device) (packet : List UInt8) :
    ∃ device' effects, processPacket device packet = some (device', effects) := by
  obtain ⟨device', effects, h, -⟩ := processPacket_received device packet
  exact ⟨device', effects, h⟩

end U80211
