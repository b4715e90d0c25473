import U80211.Device
import U80211.Packet

/-!
# `src/packet_data.c`: data frames

The transmit path turns an Ethernet frame in a driver's buffer into an 802.11 frame in place, and
the receive path turns a data frame into an Ethernet frame in place. The outer `none` is an access
outside of the buffer or of the packet.
-/

namespace U80211

open Memory

def ethernetHeaderSize : Nat := 14
def ethernetMaxFrameSize : Nat := 1514
def llcSnapSize : Nat := 8
def txBufferHeadroom : Nat := 64
def ccmpHeaderSize : Nat := 8
def tkipHeaderSize : Nat := 8
def tkipMicSize : Nat := 8

/-- `CCMP_EXT_IV` and `TKIP_EXT_IV` -/
def extIv : UInt8 := 0x20

/-- `TX_BUFFER_TAILROOM` -/
def txBufferTailroom : Nat := tkipMicSize

/-- `byte_header` -/
def byteHeader : List UInt8 := [0xaa, 0xaa, 0x03, 0x00, 0x00, 0x00]

/-! ## Receiving -/

/-- `u80211_process_data_packet`: the Ethernet frame that the kernel receives, if any. -/
def processDataPacket (packet : List UInt8) (header : HeaderDescription) (data dataSize : Nat) :
    Option (Option (List UInt8)) :=
  if dataSize < llcSnapSize then some none
  else do
    let start ← readBytes packet data 6
    if start.toList ≠ byteHeader then some none
    else do
      let ethertype ← readBytes packet (data + 6) 2
      -- the Ethernet header ends where the LLC/SNAP header does
      let data ← subtractSize (data + llcSnapSize) ethernetHeaderSize
      let dataSize ← subtractSize (dataSize + ethernetHeaderSize) llcSnapSize
      let toDs := hasFlag header.frameControl frameControlToDs
      let fromDs := hasFlag header.frameControl frameControlFromDs
      let destination := if toDs then header.address3 else header.address1
      let source :=
        if toDs then (if fromDs then header.address4 else header.address2)
        else if fromDs then header.address3 else header.address2
      let packet ← writeBytes packet data destination.toList
      let packet ← writeBytes packet (data + 6) source.toList
      let packet ← writeBytes packet (data + 12) ethertype.toList
      let buffer ← readBytes packet data dataSize
      some (some buffer.toList)

/-! ## Cipher headers -/

/-- The CCMP header that `prepare_ccmp_tx` writes. -/
def ccmpHeader (key : UInt8) (sequence : FixedBytes 6) : List UInt8 :=
  let s := sequence.toList
  [s.getD 0 0, s.getD 1 0, 0, extIv ||| key <<< 6, s.getD 2 0, s.getD 3 0, s.getD 4 0, s.getD 5 0]

/-- The TKIP header that `prepare_tkip_tx` writes. -/
def tkipHeader (key : UInt8) (sequence : FixedBytes 6) : List UInt8 :=
  let s := sequence.toList
  [s.getD 1 0, (s.getD 1 0 ||| 0x20) &&& 0x7f, s.getD 0 0, extIv ||| key <<< 6, s.getD 2 0,
    s.getD 3 0, s.getD 4 0, s.getD 5 0]

/-- `header->frame_control |= U80211_HEADER_FRAME_CONTROL_PROTECTED_FRAME` -/
def HeaderDescription.protect (header : HeaderDescription) : HeaderDescription :=
  { header with frameControl := header.frameControl ||| frameControlProtectedFrame }

/-- What the preparation of a cipher header leaves behind: the device, the header and the
descriptor, or a status and the descriptor as it is by then. -/
abbrev CipherTx :=
  Except (Status × TxBufferDescriptor) (Device × HeaderDescription × TxBufferDescriptor)

/-- `prepare_ccmp_tx` -/
def prepareCcmpTx (device : Device) (header : HeaderDescription) (key : UInt8)
    (d : TxBufferDescriptor) : Option CipherTx :=
  match d.allocateSpace ccmpHeaderSize with
  | none => some (.error (.notEnoughSpace, d))
  | some (off, d) =>
    match keyNextTxSequence device.macAddress device.keys header key .ccmp with
    | none => some (.error (.notPermitted, d))
    | some (sequence, keys) => do
      let d ← d.write off (ccmpHeader key sequence)
      some (.ok ({ device with keys }, header.protect, d))

/-- The packet that a message integrity code of the transmit path covers. -/
def transmitTkipData (header : HeaderDescription) (key : UInt8) (data : List UInt8) : TkipData where
  header := header
  keyIndex := key
  destination := header.address3
  source := header.address2
  priority := 0
  data := data

/-- `prepare_tkip_tx` -/
def prepareTkipTx (device : Device) (header : HeaderDescription) (key : UInt8)
    (d : TxBufferDescriptor) : Option CipherTx :=
  let (start, size) := (d.data + d.currentOffset, d.size - d.currentOffset)
  match d.allocateSpace tkipHeaderSize with
  | none => some (.error (.notEnoughSpace, d))
  | some (off, d) => do
    let data ← readBytes d.buffer start size
    let tkipData := transmitTkipData header key data.toList
    match ← keyPrepareTkipTx device.macAddress device.keys tkipData with
    | none => some (.error (.notPermitted, d))
    | some (sequence, mic, keys) => do
      let d ← d.write off (tkipHeader key sequence)
      let d ← d.write (d.data + d.size) mic.toList
      some (.ok ({ device with keys }, header.protect, { d with size := d.size + tkipMicSize }))

/-! ## Transmitting -/

/-- `u80211_transmit_options_t`; `none` stands for -1. -/
structure TransmitOptions where
  key : Option UInt8
  cipher : Option Cipher
deriving DecidableEq

/-- What becomes of a descriptor. -/
inductive TransmitResult where
  /-- `ops->free_tx_buffer`, and the status that is returned -/
  | freed (d : TxBufferDescriptor) (status : Status)
  /-- `ops->transmit`, whose status is returned -/
  | transmitted (d : TxBufferDescriptor) (options : TransmitOptions)
deriving DecidableEq

/-- `u80211_allocate_tx_buffer`, given what the driver answers to a request for a buffer. The
subtractions of `size_t` do not wrap when the driver answers with the size that was asked for. -/
def allocateTxBuffer (allocate : Nat → Except Status TxBufferDescriptor) :
    Except Status TxBufferDescriptor :=
  match allocate (ethernetMaxFrameSize + txBufferHeadroom + txBufferTailroom) with
  | .error status => .error status
  | .ok d =>
    .ok { d with
      data := d.data + txBufferHeadroom
      size := d.size - (txBufferHeadroom + txBufferTailroom)
      currentOffset := d.currentOffset - (txBufferHeadroom + txBufferTailroom) }

/-- The `switch` over the cipher in `u80211_transmit_buffer`. -/
def prepareCipherTx (device : Device) (header : HeaderDescription) (key : UInt8)
    (d : TxBufferDescriptor) : Option Cipher → Option CipherTx
  | some .ccmp => prepareCcmpTx device header key d
  | some .tkip => prepareTkipTx device header key d
  | _ => some (.error (.unsupported, d))

/-- The end of `u80211_transmit_buffer`: the header is put in front and the driver gets the
descriptor. -/
def transmitFrame (device : Device) (header : HeaderDescription) (d : TxBufferDescriptor)
    (options : TransmitOptions) : Option (Device × TransmitResult) := do
  match ← serializeHeader header d with
  | .error status => some (device, .freed d status)
  | .ok d => some (device, .transmitted d options)

/-- The header of a data frame to the access point. -/
def transmitHeader (ap : AccessPoint) (source destination : MacAddress) (sequenceControl : UInt16) :
    HeaderDescription where
  frameControl := frameControlTypeData <<< 2 ||| frameControlToDs
  durationId := 0
  address1 := ap.macAddress
  address2 := source
  address3 := destination
  address4 := .zero 6
  sequenceControl := sequenceControl

/-- `u80211_transmit_buffer` from the selection of the key on. -/
def transmitWithKey (device : Device) (header : HeaderDescription) (d : TxBufferDescriptor) :
    Option (Device × TransmitResult) :=
  match selectKey device.macAddress device.keys header with
  | none => transmitFrame device header d { key := none, cipher := none }
  | some key =>
    if 3 < key then some (device, .freed d .notPermitted)
    else do
      let cipher := selectCipherByIndex device.macAddress device.keys header key
      match ← prepareCipherTx device header key d cipher with
      | .error (status, d) => some (device, .freed d status)
      | .ok (device, header, d) => transmitFrame device header d { key := some key, cipher }

/-- `u80211_transmit_buffer` up to the selection of the key: the header, and the descriptor with the
Ethernet header converted. An error is what becomes of a descriptor that is freed before. -/
def transmitConvert (device : Device) (d : TxBufferDescriptor) :
    Option (Device × Except TransmitResult (HeaderDescription × TxBufferDescriptor)) :=
  if d.data < txBufferHeadroom then none
  else
    let d := { d with
      data := d.data - txBufferHeadroom
      size := d.size + txBufferHeadroom
      currentOffset := d.currentOffset + txBufferHeadroom }
    match device.association.ap with
    | none => some (device, .error (.freed d .notAssociated))
    | some ap =>
      if device.association.state ≠ .associated then
        some (device, .error (.freed d .notAssociated))
      else
        let device := device.hold ap
        if d.size - d.currentOffset < ethernetHeaderSize then
          some (device.release ap, .error (.freed d .notEnoughSpace))
        else do
          let ethernetHeader := d.data + d.currentOffset
          let destination ← readBytes d.buffer ethernetHeader 6
          let source ← readBytes d.buffer (ethernetHeader + 6) 6
          let ethertype ← readBytes d.buffer (ethernetHeader + 12) 2
          let d := { d with currentOffset := d.currentOffset + ethernetHeaderSize }
          match d.allocateSpace llcSnapSize with
          | none => some (device.release ap, .error (.freed d .notEnoughSpace))
          | some (llcSnap, d) => do
            let d ← d.write llcSnap byteHeader
            let d ← d.write (llcSnap + 6) ethertype.toList
            let header := transmitHeader ap source destination device.txSequenceControl
            let device := { device with txSequenceControl := device.txSequenceControl + 0x10 }
            some (device.release ap, .ok (header, d))

/-- `u80211_transmit_buffer` -/
def transmitBuffer (device : Device) (d : TxBufferDescriptor) :
    Option (Device × TransmitResult) := do
  match ← transmitConvert device d with
  | (device, .error result) => some (device, result)
  | (device, .ok (header, d)) => transmitWithKey device header d

end U80211
