import U80211.Data
import U80211.Management

/-!
# `src/packet.c`: the receive path

`processPacket` handles one packet from start to end. What it asks of the kernel and of other parts
of the library are its effects, in order.
-/

namespace U80211

open Memory

def ccmpMicSize : Nat := 8
def tkipIcvSize : Nat := 4

/-- What the receive path calls outside of itself. -/
inductive ReceiveEffect where
  /-- `u80211_kernel_receive_callback` -/
  | receiveCallback (frame : List UInt8)
  /-- `u80211_kernel_enqueue_work` of the completion work of a context -/
  | enqueueCompletion (context : AssociationContext)
  /-- `u80211_kernel_enqueue_work` of the cleanup work -/
  | enqueueCleanup
  /-- `u80211_scan_process_response` -/
  | scanProcessResponse (beacon : BeaconData)

/-- The effect queues work of the association machine. -/
def ReceiveEffect.isAssociationWork : ReceiveEffect → Bool
  | .enqueueCompletion _ | .enqueueCleanup => true
  | _ => false

/-- `deserialize_cipher_key_index`; the inner `none` is `false`. -/
def deserializeCipherKeyIndex (packet : List UInt8) (data dataSize : Nat) :
    Option (Option UInt8) :=
  if dataSize < 4 then some none
  else do
    let b ← packet[data + 3]?
    some (some (b >>> 6))

/-- `data_packet_for_device` -/
def dataPacketForDevice (own : MacAddress) (header : HeaderDescription) : Bool :=
  macAddressEqual header.address1 own || header.address1.isGroup

/-- `data_packet_addresses`: the destination and the source of a data frame. -/
def dataPacketAddresses (header : HeaderDescription) : MacAddress × MacAddress :=
  let fromDs := hasFlag header.frameControl frameControlFromDs
  if hasFlag header.frameControl frameControlToDs then
    (header.address3, if fromDs then header.address4 else header.address2)
  else (header.address1, if fromDs then header.address3 else header.address2)

/-- The packet number in the order that the bytes of a cipher header have. -/
def ccmpSequence (h : FixedBytes 8) : FixedBytes 6 :=
  let b := h.toList
  ⟨[b.getD 0 0, b.getD 1 0, b.getD 4 0, b.getD 5 0, b.getD 6 0, b.getD 7 0], rfl⟩

def tkipSequence (h : FixedBytes 8) : FixedBytes 6 :=
  let b := h.toList
  ⟨[b.getD 2 0, b.getD 0 0, b.getD 4 0, b.getD 5 0, b.getD 6 0, b.getD 7 0], rfl⟩

/-- The device and where the data starts and how long it is, once a cipher header has been
accepted. -/
abbrev CipherRx := Device × Nat × Nat

/-- `process_ccmp_rx`; the inner `none` is `false`. -/
def processCcmpRx (device : Device) (packet : List UInt8) (header : HeaderDescription)
    (keyIndex : UInt8) (data dataSize : Nat) : Option (Option CipherRx) :=
  if dataSize < ccmpHeaderSize + ccmpMicSize then some none
  else do
    let ccmpHeader ← readBytes packet data 8
    if ccmpHeader.toList.getD 3 0 &&& extIv = 0 then some none
    else
      match keyUpdateRxSequence device.macAddress device.keys header keyIndex .ccmp
        (ccmpSequence ccmpHeader) with
      | (false, _) => some none
      | (true, keys) => do
        let dataSize ← subtractSize dataSize (ccmpHeaderSize + ccmpMicSize)
        some (some ({ device with keys }, data + ccmpHeaderSize, dataSize))

/-- `process_tkip_rx`; the inner `none` is `false`. -/
def processTkipRx (device : Device) (packet : List UInt8) (header : HeaderDescription)
    (keyIndex : UInt8) (data dataSize : Nat) : Option (Option CipherRx) :=
  if frameControlGetType header.frameControl ≠ frameControlTypeData then some none
  else if frameControlGetSubtype header.frameControl ≠ frameControlSubtypeData then some none
  else if dataSize < tkipHeaderSize + tkipMicSize + tkipIcvSize then some none
  else do
    let tkipHeader ← readBytes packet data 8
    let h := tkipHeader.toList
    if h.getD 3 0 &&& extIv = 0 then some none
    else if h.getD 1 0 ≠ (h.getD 0 0 ||| 0x20) &&& 0x7f then some none
    else do
      let payload := data + tkipHeaderSize
      let payloadSize ← subtractSize dataSize (tkipHeaderSize + tkipMicSize + tkipIcvSize)
      let payloadBytes ← readBytes packet payload payloadSize
      let mic ← readBytes packet (payload + payloadSize) 8
      let (destination, source) := dataPacketAddresses header
      let tkipData : TkipData :=
        { header, keyIndex, destination, source, priority := 0, data := payloadBytes.toList }
      match ← keyValidateTkipRx device.macAddress device.keys tkipData (tkipSequence tkipHeader)
        mic with
      | (false, _) => some none
      | (true, keys) => some (some ({ device with keys }, payload, payloadSize))

/-- The `switch` over the cipher in `u80211_process_packet`. -/
def processCipherRx (device : Device) (packet : List UInt8) (header : HeaderDescription)
    (keyIndex : UInt8) (data dataSize : Nat) : Option Cipher → Option (Option CipherRx)
  | some .ccmp => processCcmpRx device packet header keyIndex data dataSize
  | some .tkip => processTkipRx device packet header keyIndex data dataSize
  | _ => some none

/-- The part of `u80211_process_packet` that removes a cipher header. -/
def processProtection (device : Device) (packet : List UInt8) (header : HeaderDescription)
    (data dataSize : Nat) : Option (Option CipherRx) :=
  if hasFlag header.frameControl frameControlProtectedFrame then do
    match ← deserializeCipherKeyIndex packet data dataSize with
    | none => some none
    | some keyIndex =>
      processCipherRx device packet header keyIndex data dataSize
        (selectCipherByIndex device.macAddress device.keys header keyIndex)
  else some (some (device, data, dataSize))

/-- The section of the association machine that a frame leads to, and what the caller queues. -/
def Device.applySection (device : Device) (r : SectionResult) : Device × List ReceiveEffect :=
  let device := { device with association := r.association }
  let device :=
    match r.held with
    | none => device
    | some ap => device.hold ap
  let completion :=
    match r.completion with
    | none => []
    | some context => [.enqueueCompletion context]
  (device, completion ++ if r.cleanupNeeded then [.enqueueCleanup] else [])

/-- What a handler does after its checks. -/
def runPlan (device : Device) (header : HeaderDescription) :
    ManagementPlan → Device × List ReceiveEffect
  | .ignore => (device, [])
  | .filter expectedState message =>
    match associationIsDuplicate device.association header expectedState with
    | (true, association) => ({ device with association }, [])
    | (false, association) =>
      { device with association }.applySection (associationProcess association message)
  | .process message => device.applySection (associationProcess device.association message)
  | .scanProcessResponse beacon => (device, [.scanProcessResponse beacon])

/-- `u80211_process_packet` -/
def processPacket (device : Device) (packet : List UInt8) :
    Option (Device × List ReceiveEffect) := do
  let device := { device with packetCount := device.packetCount + 1 }
  match ← deserializeHeader packet with
  | .error _ => some (device, [])
  | .ok r =>
    let header := r.header
    match ← processProtection device packet header r.dataStart r.dataSize with
    | none => some (device, [])
    | some (device, data, dataSize) =>
      let type := frameControlGetType header.frameControl
      if type = frameControlTypeManagement then do
        let body ← readBytes packet data dataSize
        let plan ← processManagementPacket device.macAddress header body.toList
        some (runPlan device header plan)
      else if type = frameControlTypeData then
        if ¬ dataPacketForDevice device.macAddress header then some (device, [])
        else
          match associationIsDuplicate device.association header .associated with
          | (true, association) => some ({ device with association }, [])
          | (false, association) => do
            let device := { device with association }
            match ← processDataPacket packet header data dataSize with
            | none => some (device, [])
            | some frame => some (device, [.receiveCallback frame])
      else some (device, [])

end U80211
