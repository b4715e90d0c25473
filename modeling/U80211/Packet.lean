import U80211.Basic

/-!
# `src/packet.c`: 802.11 headers

`deserializeHeader` reads a header from the start of a packet, `serializeHeader` puts one in front
of what a transmit buffer holds. In both, the outer `none` is an access outside of the memory that
the caller has handed over, or a size that wraps.
-/

namespace U80211

open Memory

/-! ## Transmit buffers -/

/-- `u80211_tx_buffer_descriptor_t` together with the bytes that the driver has allocated; `data`
is an offset in them. -/
structure TxBufferDescriptor where
  buffer : List UInt8
  data : Nat
  size : Nat
  currentOffset : Nat
deriving DecidableEq

namespace TxBufferDescriptor

/-- `u80211_descriptor_allocate_space`: the offset of the space in the buffer, `none` for `NULL`. -/
def allocateSpace (d : TxBufferDescriptor) (size : Nat) : Option (Nat × TxBufferDescriptor) :=
  if d.currentOffset < size then none
  else
    let d := { d with currentOffset := d.currentOffset - size }
    some (d.data + d.currentOffset, d)

/-- Copy bytes into the buffer. -/
def write (d : TxBufferDescriptor) (off : Nat) (bs : List UInt8) : Option TxBufferDescriptor :=
  (writeBytes d.buffer off bs).map fun buffer => { d with buffer }

/-- The bytes that the descriptor holds: those from `current_offset` to `size`. -/
def content (d : TxBufferDescriptor) : List UInt8 :=
  slice d.buffer (d.data + d.currentOffset) (d.size - d.currentOffset)

end TxBufferDescriptor

/-! ## Reading a header -/

/-- A header, and where the data after it starts and how long it is. -/
structure Deserialized where
  header : HeaderDescription
  dataStart : Nat
  dataSize : Nat

/-- `deserialize_management_header`, from the offset that follows the common part. -/
def deserializeManagementHeader (source : List UInt8) (off size : Nat)
    (header : HeaderDescription) : Option (Except Status Deserialized) :=
  if size < 14 then some (.error .notEnoughSpace)
  else do
    let address2 ← readBytes source off 6
    let address3 ← readBytes source (off + 6) 6
    let sequenceControl ← deserializeLe16 source (off + 12)
    let dataSize ← subtractSize size 14
    some (.ok
      { header := { header with address2, address3, sequenceControl }
        dataStart := off + 14
        dataSize })

/-- Both bits of the direction are set, so that there is a fourth address. -/
def HeaderDescription.isFourAddress (header : HeaderDescription) : Bool :=
  hasFlag header.frameControl frameControlToDs && hasFlag header.frameControl frameControlFromDs

/-- `deserialize_data_header` -/
def deserializeDataHeader (source : List UInt8) (off size : Nat) (header : HeaderDescription) :
    Option (Except Status Deserialized) :=
  let subtype := frameControlGetSubtype header.frameControl
  if subtype ≠ frameControlSubtypeData ∧ subtype ≠ frameControlSubtypeNullData then
    some (.error .unsupported)
  else
    let headerSize := if header.isFourAddress then 20 else 14
    if size < headerSize then some (.error .notEnoughSpace)
    else do
      let address2 ← readBytes source off 6
      let address3 ← readBytes source (off + 6) 6
      let sequenceControl ← deserializeLe16 source (off + 12)
      let address4 ←
        if headerSize = 20 then readBytes source (off + 14) 6 else some header.address4
      let dataSize ← subtractSize size headerSize
      some (.ok
        { header := { header with address2, address3, sequenceControl, address4 }
          dataStart := off + headerSize
          dataSize })

/-- `u80211_deserialize_header`. Fields that the source leaves unset are zero here. -/
def deserializeHeader (source : List UInt8) : Option (Except Status Deserialized) :=
  if source.length < 10 then some (.error .notEnoughSpace)
  else do
    let frameControl ← deserializeLe16 source 0
    let durationId ← deserializeLe16 source 2
    let address1 ← readBytes source 4 6
    let header : HeaderDescription :=
      { frameControl, durationId, address1
        address2 := .zero 6
        address3 := .zero 6
        address4 := .zero 6
        sequenceControl := 0 }
    let nextPartSize ← subtractSize source.length 10
    let type := frameControlGetType frameControl
    if type = frameControlTypeManagement then
      deserializeManagementHeader source 10 nextPartSize header
    else if type = frameControlTypeControl then some (.error .unsupported)
    else if type = frameControlTypeData then
      deserializeDataHeader source 10 nextPartSize header
    else some (.error .unsupported)

/-! ## Writing a header -/

/-- `serialize_common_header` -/
def serializeCommonHeader (header : HeaderDescription) (destination : Nat)
    (d : TxBufferDescriptor) : Option TxBufferDescriptor := do
  let d ← d.write destination (serializeLe16 header.frameControl)
  let d ← d.write (destination + 2) (serializeLe16 header.durationId)
  d.write (destination + 4) header.address1.toList

/-- `serialize_management_header` -/
def serializeManagementHeader (header : HeaderDescription) (d : TxBufferDescriptor) :
    Option (Except Status TxBufferDescriptor) :=
  match d.allocateSpace 24 with
  | none => some (.error .notEnoughSpace)
  | some (destination, d) => do
    let d ← serializeCommonHeader header destination d
    let d ← d.write (destination + 10) header.address2.toList
    let d ← d.write (destination + 16) header.address3.toList
    let d ← d.write (destination + 22) (serializeLe16 header.sequenceControl)
    some (.ok d)

/-- `serialize_data_header` -/
def serializeDataHeader (header : HeaderDescription) (d : TxBufferDescriptor) :
    Option (Except Status TxBufferDescriptor) :=
  let subtype := frameControlGetSubtype header.frameControl
  if subtype ≠ frameControlSubtypeData ∧ subtype ≠ frameControlSubtypeNullData then
    some (.error .unsupported)
  else
    let headerSize := if header.isFourAddress then 30 else 24
    match d.allocateSpace headerSize with
    | none => some (.error .notEnoughSpace)
    | some (destination, d) => do
      let d ← serializeCommonHeader header destination d
      let d ← d.write (destination + 10) header.address2.toList
      let d ← d.write (destination + 16) header.address3.toList
      let d ← d.write (destination + 22) (serializeLe16 header.sequenceControl)
      let d ← if headerSize = 30 then d.write (destination + 24) header.address4.toList else some d
      some (.ok d)

/-- `u80211_serialize_header` -/
def serializeHeader (header : HeaderDescription) (d : TxBufferDescriptor) :
    Option (Except Status TxBufferDescriptor) :=
  let type := frameControlGetType header.frameControl
  if type = frameControlTypeManagement then serializeManagementHeader header d
  else if type = frameControlTypeControl then some (.error .unsupported)
  else if type = frameControlTypeData then serializeDataHeader header d
  else some (.error .unsupported)

/-- The bytes of a header with three addresses. -/
def HeaderDescription.bytes (header : HeaderDescription) : List UInt8 :=
  serializeLe16 header.frameControl ++ serializeLe16 header.durationId ++
    header.address1.toList ++ header.address2.toList ++ header.address3.toList ++
    serializeLe16 header.sequenceControl

theorem HeaderDescription.length_bytes (header : HeaderDescription) : header.bytes.length = 24 := by
  simp only [HeaderDescription.bytes, List.length_append, length_serializeLe16,
    FixedBytes.length_toList]

end U80211
