import U80211.Lib.Lts
import U80211.Receive
import U80211.System

/-!
# The key list under all interleavings

The state of the system is the device, the keys that its driver has installed, and the position of
every call in its code. One step runs one section under `key_spinlock` or one operation of the
driver, with what the call does between it and the one before; between two steps of a call any other
step may be taken.

The association of the device may change at any time, in any way: nothing here depends on what the
association machine does.
-/

namespace U80211

namespace KeyStore

open Memory

/-! ## State -/

/-- A buffer of `u80211_allocate_tx_buffer` that the caller has put an Ethernet frame into: there is
room in front of it and behind it. -/
structure TransmitRequest where
  descriptor : TxBufferDescriptor
  headroom : txBufferHeadroom ≤ descriptor.data
  tailroom : descriptor.data + descriptor.size + txBufferTailroom ≤ descriptor.buffer.length
  offset : descriptor.currentOffset ≤ descriptor.size

/-- Which entry a packet number has been drawn from, as it was then, and the number. The code keeps
no such thing: it is part of the position for what is said about it. -/
structure Draw where
  entry : KeyMetadata
  number : Nat

/-- Positions of the calls into the library, with their arguments and locals. -/
inductive Call where
  /-- `u80211_set_key` -/
  | setKey (key : Key)
  /-- before `ops->set_key` -/
  | setKeyDriver (key : Key) (metadata : KeyMetadata)
  /-- before the section of `u80211_set_key` -/
  | setKeyList (key : Key) (metadata : KeyMetadata)
  /-- `u80211_del_key`, before `ops->del_key` -/
  | delKey (index : UInt8) (peer : MacAddress) (flags : UInt32)
  /-- before the section of `u80211_del_key` -/
  | delKeyList (index : UInt8) (peer : MacAddress) (flags : UInt32)
  /-- `u80211_process_packet` -/
  | receive (packet : List UInt8)
  /-- before the section of `u80211_select_cipher_by_index` -/
  | receiveSelect (packet : List UInt8) (r : Deserialized) (keyIndex : UInt8)
  /-- before the section of the cipher -/
  | receiveCipher (packet : List UInt8) (r : Deserialized) (keyIndex : UInt8)
      (cipher : Option Cipher)
  /-- `u80211_transmit_buffer` -/
  | transmit (request : TransmitRequest)
  /-- before the section of `u80211_select_key` -/
  | transmitSelect (header : HeaderDescription) (d : TxBufferDescriptor)
  /-- before the section of `u80211_select_cipher_by_index` -/
  | transmitCipher (header : HeaderDescription) (d : TxBufferDescriptor) (key : UInt8)
  /-- before the section of the cipher -/
  | transmitPrepare (header : HeaderDescription) (d : TxBufferDescriptor) (key : UInt8)
      (cipher : Option Cipher)
  /-- before `u80211_serialize_header` and `ops->transmit` -/
  | transmitFrame (header : HeaderDescription) (d : TxBufferDescriptor)
      (options : TransmitOptions) (draw : Option Draw)
  /-- a call that has returned a status -/
  | returned (status : Status)
  /-- a packet of which nothing is left to do for the keys -/
  | handled
  /-- a transmission, and what has become of its buffer -/
  | consumed (result : TransmitResult)

/-- A key of the driver. -/
structure HardwareKey where
  index : UInt8
  peer : MacAddress
  flags : UInt32
  bytes : List UInt8
deriving DecidableEq

structure State where
  device : Device
  /-- `device->ops->set_key` is there -/
  hasSetKey : Bool
  /-- `device->ops->del_key` is there -/
  hasDelKey : Bool
  /-- the next address that an entry is allocated at -/
  nextObject : Nat
  /-- the keys of the driver, one for each identity -/
  hardware : List HardwareKey
  calls : List Call

/-- The state as `u80211_register_device` leaves it. -/
def State.registered (ownAddress : MacAddress) (hasSetKey hasDelKey : Bool) : State where
  device :=
    { macAddress := ownAddress
      packetCount := 0
      txSequenceControl := 0
      keys := []
      association := .registered
      references := fun _ => 0 }
  hasSetKey := hasSetKey
  hasDelKey := hasDelKey
  nextObject := 0
  hardware := []
  calls := []

namespace State

@[simps] def setCall (s : State) (i : Nat) (c : Call) : State :=
  { s with calls := s.calls.set i c }

@[simps] def setDevice (s : State) (device : Device) : State := { s with device }

@[simps] def setKeys (s : State) (keys : List KeyMetadata) : State :=
  { s with device := { s.device with keys } }

end State

/-! ## Steps of a call -/

/-- The driver deletes the key of an identity. -/
def hardwareDel (hardware : List HardwareKey) (index : UInt8) (peer : MacAddress)
    (flags : UInt32) : List HardwareKey :=
  hardware.filter fun h => ¬ (h.index = index ∧ h.peer = peer ∧ h.flags = flags)

/-- The driver installs a key, in the place of the one with the same identity. -/
def hardwareSet (hardware : List HardwareKey) (key : Key) : List HardwareKey :=
  { index := key.index, peer := key.peer, flags := key.flags, bytes := key.bytes } ::
    hardwareDel hardware key.index key.peer key.flags

/-- The entry that the section of a cipher looks up. -/
def transmitEntry (own : MacAddress) (keys : List KeyMetadata) (header : HeaderDescription)
    (key : UInt8) : Option Cipher → Option KeyMetadata
  | some .ccmp => keys.find? (keyMatchesHeader own header)
  | some .tkip => keys.find? fun m => m.index == key && keyMatchesHeader own header m
  | _ => none

/-- The packet number that the section of a cipher draws. -/
def transmitNumber (own : MacAddress) (keys : List KeyMetadata) (header : HeaderDescription)
    (key : UInt8) (d : TxBufferDescriptor) : Option Cipher → Option (FixedBytes 6)
  | some .ccmp => (keyNextTxSequence own keys header key .ccmp).map (·.1)
  | some .tkip =>
    (keyPrepareTkipTx own keys (transmitTkipData header key d.content)).join.map (·.1)
  | _ => none

/-- What the section of a cipher draws, and from where. -/
def transmitDraw (own : MacAddress) (keys : List KeyMetadata) (header : HeaderDescription)
    (key : UInt8) (d : TxBufferDescriptor) (cipher : Option Cipher) : Option Draw := do
  let entry ← transmitEntry own keys header key cipher
  let sequence ← transmitNumber own keys header key d cipher
  some { entry, number := leValue sequence.toList }

/-- The next step of call `i`, which stands at the given position. -/
def stepCall (s : State) (i : Nat) (outcome : Outcome) : Call → Option State
  | .setKey key =>
    match setKeyAllocate key s.hasSetKey outcome.allocated s.nextObject with
    | .error status => some (s.setCall i (.returned status))
    | .ok metadata =>
      some ({ s with nextObject := s.nextObject + 1 }.setCall i (.setKeyDriver key metadata))
  | .setKeyDriver key metadata =>
    if outcome.status ≠ .success then some (s.setCall i (.returned outcome.status))
    else
      some ({ s with hardware := hardwareSet s.hardware key }.setCall i (.setKeyList key metadata))
  | .setKeyList _ metadata =>
    some ((s.setKeys (U80211.setKeyList s.device.keys metadata)).setCall i (.returned .success))
  | .delKey index peer flags =>
    if ¬ s.hasDelKey then some (s.setCall i (.returned .unsupported))
    else if outcome.status ≠ .success then some (s.setCall i (.returned outcome.status))
    else
      some ({ s with hardware := hardwareDel s.hardware index peer flags }.setCall i
        (.delKeyList index peer flags))
  | .delKeyList index peer flags =>
    some ((s.setKeys (U80211.delKeyList s.device.keys index peer flags)).setCall i
      (.returned .success))
  | .receive packet =>
    let s := s.setDevice { s.device with packetCount := s.device.packetCount + 1 }
    match deserializeHeader packet with
    | none => none
    | some (.error _) => some (s.setCall i .handled)
    | some (.ok r) =>
      if hasFlag r.header.frameControl frameControlProtectedFrame then
        match deserializeCipherKeyIndex packet r.dataStart r.dataSize with
        | none => none
        | some none => some (s.setCall i .handled)
        | some (some keyIndex) => some (s.setCall i (.receiveSelect packet r keyIndex))
      else some (s.setCall i .handled)
  | .receiveSelect packet r keyIndex =>
    let cipher := selectCipherByIndex s.device.macAddress s.device.keys r.header keyIndex
    some (s.setCall i (.receiveCipher packet r keyIndex cipher))
  | .receiveCipher packet r keyIndex cipher =>
    match processCipherRx s.device packet r.header keyIndex r.dataStart r.dataSize cipher with
    | none => none
    | some none => some (s.setCall i .handled)
    | some (some (device, _, _)) => some ((s.setDevice device).setCall i .handled)
  | .transmit request =>
    match transmitConvert s.device request.descriptor with
    | none => none
    | some (device, .error result) => some ((s.setDevice device).setCall i (.consumed result))
    | some (device, .ok (header, d)) =>
      some ((s.setDevice device).setCall i (.transmitSelect header d))
  | .transmitSelect header d =>
    match selectKey s.device.macAddress s.device.keys header with
    | none => some (s.setCall i (.transmitFrame header d { key := none, cipher := none } none))
    | some key =>
      if 3 < key then some (s.setCall i (.consumed (.freed d .notPermitted)))
      else some (s.setCall i (.transmitCipher header d key))
  | .transmitCipher header d key =>
    let cipher := selectCipherByIndex s.device.macAddress s.device.keys header key
    some (s.setCall i (.transmitPrepare header d key cipher))
  | .transmitPrepare header d key cipher =>
    match prepareCipherTx s.device header key d cipher with
    | none => none
    | some (.error (status, d)) => some (s.setCall i (.consumed (.freed d status)))
    | some (.ok (device, header', d')) =>
      let draw := transmitDraw s.device.macAddress s.device.keys header key d cipher
      some ((s.setDevice device).setCall i
        (.transmitFrame header' d' { key := some key, cipher } draw))
  | .transmitFrame header d options _ =>
    match U80211.transmitFrame s.device header d options with
    | none => none
    | some (device, result) => some ((s.setDevice device).setCall i (.consumed result))
  | .returned _ => none
  | .handled => none
  | .consumed _ => none

/-! ## The system -/

/-- The calls that other code makes into the library. -/
inductive Entry where
  | setKey (key : Key)
  | delKey (index : UInt8) (peer : MacAddress) (flags : UInt32)
  | processPacket (packet : List UInt8)
  | transmitBuffer (request : TransmitRequest)

def Entry.start : Entry → Call
  | .setKey key => .setKey key
  | .delKey index peer flags => .delKey index peer flags
  | .processPacket packet => .receive packet
  | .transmitBuffer request => .transmit request

inductive Action where
  /-- a thread or an interrupt enters the library -/
  | invoke (entry : Entry)
  /-- call `i` takes its next step -/
  | advance (i : Nat) (outcome : Outcome)
  /-- the association machine changes the association -/
  | associate (association : Association)

/-- The step of an action; `none` when it is not enabled. -/
def step (action : Action) (s : State) : Option State :=
  match action with
  | .invoke entry => some { s with calls := s.calls ++ [entry.start] }
  | .advance i outcome =>
    match s.calls[i]? with
    | none => none
    | some c => stepCall s i outcome c
  | .associate association => some (s.setDevice { s.device with association })

abbrev Transition := Lts.Transition State Action

/-- The runs of a device that has been registered. -/
abbrev Run (ownAddress : MacAddress) (hasSetKey hasDelKey : Bool) :
    List Transition → State → Prop :=
  Lts.Run step (.registered ownAddress hasSetKey hasDelKey)

end KeyStore

end U80211
