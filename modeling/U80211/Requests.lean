import U80211.Data
import U80211.Management

/-!
# `src/packet_management.c`: sent management frames

The senders ask the driver for a buffer, fill it and hand it back to the driver. What the driver
answers is a parameter, and the calls of its `ops` are recorded in the order in which they are made.
The outer `none` is an access outside of the buffer.
-/

namespace U80211

open Memory

/-! ## The driver -/

/-- A call of one of the driver's `ops`. -/
inductive DriverCall where
  | allocateTxBuffer (size : Nat)
  | freeTxBuffer (d : TxBufferDescriptor)
  | transmit (d : TxBufferDescriptor) (options : TransmitOptions)
deriving DecidableEq

/-- What the driver answers. The status of `free_tx_buffer` is ignored. -/
structure Driver where
  allocateTxBuffer : Nat → Except Status TxBufferDescriptor
  transmit : TxBufferDescriptor → TransmitOptions → Status

/-- A device, and the calls of the driver's `ops` so far. -/
structure Ops where
  device : Device
  calls : List DriverCall

def Ops.call (s : Ops) (call : DriverCall) : Ops := { s with calls := s.calls ++ [call] }

/-- `__atomic_fetch_add(&device->tx_sequence_control, 0x10, __ATOMIC_RELAXED)` -/
def Ops.nextSequence (s : Ops) : Ops :=
  { s with device :=
      { s.device with txSequenceControl := s.device.txSequenceControl + 0x10 } }

/-! ## Rates -/

def maxRateValue : Nat := 125

/-- `count_rates` -/
def countRates (rateBitmap : FixedBytes 16) : Nat :=
  (List.range (maxRateValue + 1)).foldl
    (fun count rate => if hasRate rateBitmap rate then count + 1 else count) 0

/-- `rate_information_elements_size` -/
def rateInformationElementsSize (rateCount : Nat) : Nat :=
  let size := 2 + min rateCount 8
  if 8 < rateCount then size + (2 + rateCount - 8) else size

/-- What is stored, in the order in which it is: an offset in the buffer, and bytes. -/
abbrev Stores := List (Nat × List UInt8)

/-- The loop of `serialize_rate_information_elements`: what has been stored, `offset` and
`rate_index`. -/
structure RateWriter where
  stores : Stores
  offset : Nat
  rateIndex : Nat

/-- `destination[offset++] = byte` -/
def RateWriter.put (w : RateWriter) (destination : Nat) (byte : UInt8) : RateWriter :=
  { w with stores := w.stores ++ [(destination + w.offset, [byte])], offset := w.offset + 1 }

/-- One round of the loop. -/
def RateWriter.round (rateBitmap : FixedBytes 16) (destination supportedRateCount
    extendedRateCount : Nat) (w : RateWriter) (rate : Nat) : RateWriter :=
  if hasRate rateBitmap rate then
    let w :=
      if w.rateIndex = supportedRateCount ∧ extendedRateCount ≠ 0 then
        (w.put destination ieIdRatesExt).put destination (UInt8.ofNat extendedRateCount)
      else w
    let w := w.put destination (UInt8.ofNat rate)
    { w with rateIndex := w.rateIndex + 1 }
  else w

/-- `serialize_rate_information_elements`, with the offset that it returns. -/
def serializeRateInformationElements (destination : Nat) (rateBitmap : FixedBytes 16)
    (rateCount : Nat) : Stores × Nat :=
  let supportedRateCount := min rateCount 8
  let extendedRateCount := rateCount - supportedRateCount
  let w : RateWriter := { stores := [], offset := 0, rateIndex := 0 }
  let w := (w.put destination ieIdRates).put destination (UInt8.ofNat supportedRateCount)
  let w := (List.range (maxRateValue + 1)).foldl
    (RateWriter.round rateBitmap destination supportedRateCount extendedRateCount) w
  (w.stores, w.offset)

/-! ## Frames -/

def managementHeaderSize : Nat := 24
def authDataSize : Nat := 6
def reasonCodeSize : Nat := 2
def associationRequestFixedSize : Nat := 4

/-- `ASSOCIATION_CAPABILITIES` -/
def associationCapabilities : UInt16 := 0x0001 ||| 0x0020 ||| 0x0400

def associationListenInterval : UInt16 := 10

def frameControlSubtypeAssociationRequest : UInt16 := 0
def frameControlSubtypeProbeRequest : UInt16 := 4

/-- Make the stores, one after another. -/
def TxBufferDescriptor.store (d : TxBufferDescriptor) (stores : Stores) :
    Option TxBufferDescriptor :=
  stores.foldlM (fun d store => d.write store.1 store.2) d

/-- The header of a management frame to an address. -/
def managementHeader (device : Device) (address : MacAddress) (subtype : UInt16) :
    HeaderDescription where
  frameControl := subtype <<< 4
  durationId := 0
  address1 := address
  address2 := device.macAddress
  address3 := address
  address4 := .zero 6
  sequenceControl := device.txSequenceControl

/-- `prepare_management_packet`: the descriptor, and where its data are. -/
def prepareManagementPacket (driver : Driver) (s : Ops) (address : MacAddress) (subtype : UInt16)
    (dataSize : Nat) : Option (Ops × Except Status (TxBufferDescriptor × Nat)) :=
  let answer := driver.allocateTxBuffer (managementHeaderSize + dataSize)
  let s := s.call (.allocateTxBuffer (managementHeaderSize + dataSize))
  match answer with
  | .error status => some (s, .error status)
  | .ok d =>
    match d.allocateSpace dataSize with
    | none => some (s.call (.freeTxBuffer d), .error .notEnoughSpace)
    | some (data, d) => do
      let header := managementHeader s.device address subtype
      let s := s.nextSequence
      match ← serializeHeader header d with
      | .error status => some (s.call (.freeTxBuffer d), .error status)
      | .ok d => some (s, .ok (d, data))

/-- What the senders have in common: the frame is prepared, its body is stored and the driver gets
the descriptor, to send it without a key. -/
def sendManagementPacket (driver : Driver) (s : Ops) (address : MacAddress) (subtype : UInt16)
    (dataSize : Nat) (body : Nat → Stores) : Option (Ops × Status) := do
  match ← prepareManagementPacket driver s address subtype dataSize with
  | (s, .error status) => some (s, status)
  | (s, .ok (d, data)) => do
    let d ← d.store (body data)
    let options : TransmitOptions := { key := none, cipher := none }
    some (s.call (.transmit d options), driver.transmit d options)

/-- `u80211_send_authentication` -/
def sendAuthentication (driver : Driver) (s : Ops) (authData : AuthData) : Option (Ops × Status) :=
  sendManagementPacket driver s authData.address frameControlSubtypeAuthentication authDataSize
    fun data =>
      [(data, serializeLe16 authData.authAlgorithm),
        (data + 2, serializeLe16 authData.authTransaction),
        (data + 4, serializeLe16 authData.status)]

/-- `u80211_send_deauthentication` -/
def sendDeauthentication (driver : Driver) (s : Ops) (deauthenticationData : DeauthenticationData) :
    Option (Ops × Status) :=
  sendManagementPacket driver s deauthenticationData.address frameControlSubtypeDeauthentication
    reasonCodeSize fun data => [(data, serializeLe16 deauthenticationData.reason)]

/-- `probe_request_data_size` -/
def probeRequestDataSize (rateBitmap : FixedBytes 16) : Nat :=
  2 + rateInformationElementsSize (countRates rateBitmap)

/-- The body of a probe request. -/
def probeRequestBody (rateBitmap : FixedBytes 16) (probeRequestData : Nat) : Stores :=
  [(probeRequestData, [ieIdSsid]), (probeRequestData + 1, [0])] ++
    (serializeRateInformationElements (probeRequestData + 2) rateBitmap (countRates rateBitmap)).1

/-- `u80211_send_probe_request`; `rateBitmap` is `device->metadata.rate_bitmap`. -/
def sendProbeRequest (driver : Driver) (s : Ops) (rateBitmap : FixedBytes 16) :
    Option (Ops × Status) :=
  sendManagementPacket driver s broadcastAddress frameControlSubtypeProbeRequest
    (probeRequestDataSize rateBitmap) (probeRequestBody rateBitmap)

/-- The loop over `ap->ssid`, of which `limit` bytes are still looked at. -/
def ssidSizeLoop : Nat → List UInt8 → Nat
  | 0, _ => 0
  | _ + 1, [] => 0
  | limit + 1, b :: ssid => if b = 0 then 0 else ssidSizeLoop limit ssid + 1

/-- `ssid_size` in `u80211_send_association_request` -/
def ssidSize (ssid : FixedBytes 33) : Nat := ssidSizeLoop maxSsidSize ssid.toList

/-- `association_request_data_size` -/
def associationRequestDataSize (ap : AccessPoint) (rateBitmap : FixedBytes 16)
    (informationElements : List UInt8) : Nat :=
  associationRequestFixedSize + 2 + ssidSize ap.ssid +
    rateInformationElementsSize (countRates rateBitmap) + informationElements.length

/-- The body of an association request. -/
def associationRequestBody (ap : AccessPoint) (rateBitmap : FixedBytes 16)
    (informationElements : List UInt8) (data : Nat) : Stores :=
  let ssidSize := ssidSize ap.ssid
  let rates := serializeRateInformationElements (data + 6 + ssidSize) rateBitmap
    (countRates rateBitmap)
  [(data, serializeLe16 associationCapabilities),
    (data + 2, serializeLe16 associationListenInterval), (data + 4, [ieIdSsid]),
    (data + 5, [UInt8.ofNat ssidSize]), (data + 6, ap.ssid.toList.take ssidSize)] ++ rates.1 ++
    if informationElements.length ≠ 0 then
      [(data + 6 + ssidSize + rates.2, informationElements)]
    else []

/-- `u80211_send_association_request`; without an access point it would read through `NULL`. -/
def sendAssociationRequest (driver : Driver) (s : Ops) (rateBitmap : FixedBytes 16)
    (informationElements : List UInt8) : Option (Ops × Status) :=
  match s.device.association.ap with
  | none => none
  | some ap =>
    sendManagementPacket driver s ap.macAddress frameControlSubtypeAssociationRequest
      (associationRequestDataSize ap rateBitmap informationElements)
      (associationRequestBody ap rateBitmap informationElements)

end U80211
