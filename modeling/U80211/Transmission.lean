import U80211.Requests

/-!
# `src/packet_data.c`: the driver's buffers

`Data.lean` says what becomes of the descriptor of a data frame. Here each call of the driver's
`ops`, and each reference to the access point, is recorded where the source makes it, on every way
out of `u80211_transmit_buffer`.
-/

namespace U80211

open Memory

namespace Ops

/-- `u80211_ap_hold` -/
def hold (s : Ops) (ap : AccessPoint) : Ops := { s with device := s.device.hold ap }

/-- `u80211_ap_release` -/
def release (s : Ops) (ap : AccessPoint) : Ops := { s with device := s.device.release ap }

/-- The spinlock section of a cipher has changed the device. -/
def withDevice (s : Ops) (device : Device) : Ops := { s with device }

/-- `u80211_allocate_tx_buffer` -/
def allocateTxBuffer (driver : Driver) (s : Ops) : Ops × Except Status TxBufferDescriptor :=
  (s.call (.allocateTxBuffer (ethernetMaxFrameSize + txBufferHeadroom + txBufferTailroom)),
    U80211.allocateTxBuffer driver.allocateTxBuffer)

/-- `u80211_transmit_buffer` up to the selection of the key. An error is a return of the
function. -/
def transmitConvert (s : Ops) (d : TxBufferDescriptor) :
    Option (Except (Ops × Status) (Ops × HeaderDescription × TxBufferDescriptor)) :=
  if d.data < txBufferHeadroom then none
  else
    let d := { d with
      data := d.data - txBufferHeadroom
      size := d.size + txBufferHeadroom
      currentOffset := d.currentOffset + txBufferHeadroom }
    match s.device.association.ap with
    | none => some (.error (s.call (.freeTxBuffer d), .notAssociated))
    | some ap =>
      if s.device.association.state ≠ .associated then
        some (.error (s.call (.freeTxBuffer d), .notAssociated))
      else
        let s := s.hold ap
        if d.size - d.currentOffset < ethernetHeaderSize then
          let s := s.release ap
          some (.error (s.call (.freeTxBuffer d), .notEnoughSpace))
        else do
          let ethernetHeader := d.data + d.currentOffset
          let destination ← readBytes d.buffer ethernetHeader 6
          let source ← readBytes d.buffer (ethernetHeader + 6) 6
          let ethertype ← readBytes d.buffer (ethernetHeader + 12) 2
          let d := { d with currentOffset := d.currentOffset + ethernetHeaderSize }
          match d.allocateSpace llcSnapSize with
          | none =>
            let s := s.release ap
            some (.error (s.call (.freeTxBuffer d), .notEnoughSpace))
          | some (llcSnap, d) => do
            let d ← d.write llcSnap byteHeader
            let d ← d.write (llcSnap + 6) ethertype.toList
            let header := transmitHeader ap source destination s.device.txSequenceControl
            let s := s.nextSequence
            some (.ok (s.release ap, header, d))

/-- The end of `u80211_transmit_buffer`, from `u80211_serialize_header` on. -/
def transmitFrame (driver : Driver) (s : Ops) (header : HeaderDescription)
    (d : TxBufferDescriptor) (options : TransmitOptions) : Option (Ops × Status) := do
  match ← serializeHeader header d with
  | .error status => some (s.call (.freeTxBuffer d), status)
  | .ok d => some (s.call (.transmit d options), driver.transmit d options)

/-- `u80211_transmit_buffer` from the selection of the key on. -/
def transmitWithKey (driver : Driver) (s : Ops) (header : HeaderDescription)
    (d : TxBufferDescriptor) : Option (Ops × Status) :=
  match selectKey s.device.macAddress s.device.keys header with
  | none => s.transmitFrame driver header d { key := none, cipher := none }
  | some key =>
    if 3 < key then some (s.call (.freeTxBuffer d), .notPermitted)
    else
      let cipher := selectCipherByIndex s.device.macAddress s.device.keys header key
      match cipher with
      | some .ccmp => do
        match ← prepareCcmpTx s.device header key d with
        | .error (cipherStatus, d) => some (s.call (.freeTxBuffer d), cipherStatus)
        | .ok (device, header, d) =>
          (s.withDevice device).transmitFrame driver header d { key := some key, cipher }
      | some .tkip => do
        match ← prepareTkipTx s.device header key d with
        | .error (cipherStatus, d) => some (s.call (.freeTxBuffer d), cipherStatus)
        | .ok (device, header, d) =>
          (s.withDevice device).transmitFrame driver header d { key := some key, cipher }
      | _ => some (s.call (.freeTxBuffer d), .unsupported)

/-- `u80211_transmit_buffer` -/
def transmitBuffer (driver : Driver) (s : Ops) (d : TxBufferDescriptor) :
    Option (Ops × Status) := do
  match ← s.transmitConvert d with
  | .error result => some result
  | .ok (s, header, d) => s.transmitWithKey driver header d

end Ops

end U80211
