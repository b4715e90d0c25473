import U80211.Device

/-!
# A decoder for received data frames

What the receive path is for, said without a buffer that is changed in place: every field of a
header and every part of a body is a copy of bytes of the packet as it was received.

* `dataHeader`, `IsDataFrame`: the header
* `unprotect`: what is left of a body without its cipher header and trailer
* `decode`: the Ethernet frame that a packet stands for
-/

namespace U80211

namespace Decoder

open Memory

/-! ## The header -/

/-- The address at an offset. -/
def addressAt (packet : List UInt8) (off : Nat) : MacAddress :=
  (FixedBytes.zero 6).copy (slice packet off 6)

/-- The 16-bit number at an offset. -/
def le16At (packet : List UInt8) (off : Nat) : UInt16 :=
  UInt16.ofNat (leValue (slice packet off 2))

/-- A frame between two access points. -/
def isFourAddress (frameControl : UInt16) : Bool :=
  hasFlag frameControl frameControlToDs && hasFlag frameControl frameControlFromDs

/-- The header of a data frame. One with three addresses has zeros for the fourth. -/
def dataHeader (packet : List UInt8) : HeaderDescription where
  frameControl := le16At packet 0
  durationId := le16At packet 2
  address1 := addressAt packet 4
  address2 := addressAt packet 10
  address3 := addressAt packet 16
  address4 := if isFourAddress (le16At packet 0) then addressAt packet 24 else .zero 6
  sequenceControl := le16At packet 22

def dataHeaderSize (packet : List UInt8) : Nat :=
  if isFourAddress (le16At packet 0) then 30 else 24

/-- The packet starts with the whole header of a data frame of the subtype data or null-data. -/
structure IsDataFrame (packet : List UInt8) : Prop where
  type : frameControlGetType (le16At packet 0) = frameControlTypeData
  subtype : frameControlGetSubtype (le16At packet 0) = frameControlSubtypeData ∨
    frameControlGetSubtype (le16At packet 0) = frameControlSubtypeNullData
  size : dataHeaderSize packet ≤ packet.length

instance (packet : List UInt8) : Decidable (IsDataFrame packet) :=
  decidable_of_iff
    (frameControlGetType (le16At packet 0) = frameControlTypeData ∧
      (frameControlGetSubtype (le16At packet 0) = frameControlSubtypeData ∨
        frameControlGetSubtype (le16At packet 0) = frameControlSubtypeNullData) ∧
      dataHeaderSize packet ≤ packet.length)
    ⟨fun h => ⟨h.1, h.2.1, h.2.2⟩, fun h => ⟨h.type, h.subtype, h.size⟩⟩

/-- The destination and the source of a data frame, by the two bits of its direction. -/
def addresses (header : HeaderDescription) : MacAddress × MacAddress :=
  match hasFlag header.frameControl frameControlToDs,
    hasFlag header.frameControl frameControlFromDs with
  | false, false => (header.address1, header.address2)
  | false, true => (header.address1, header.address3)
  | true, false => (header.address3, header.address2)
  | true, true => (header.address3, header.address4)

/-- The device is the receiver, or one of a group. -/
def ForDevice (own : MacAddress) (header : HeaderDescription) : Prop :=
  header.address1 = own ∨ header.address1.isGroup = true

instance (own : MacAddress) (header : HeaderDescription) : Decidable (ForDevice own header) :=
  inferInstanceAs (Decidable (_ ∨ _))

/-- A retransmission of the last frame from the access point that the device is associated with. -/
def IsDuplicate (a : Association) (header : HeaderDescription) : Prop :=
  a.state = .associated ∧ a.ap.map AccessPoint.macAddress = some header.address2 ∧
    hasFlag header.frameControl frameControlRetry = true ∧
    a.receivedSequenceControlValid = true ∧ a.receivedSequenceControl = header.sequenceControl

instance (a : Association) (header : HeaderDescription) : Decidable (IsDuplicate a header) :=
  inferInstanceAs (Decidable (_ ∧ _ ∧ _ ∧ _ ∧ _))

/-! ## The body -/

/-- The packet number in a CCMP header. -/
def ccmpNumber (body : List UInt8) : Nat :=
  leValue [body.getD 0 0, body.getD 1 0, body.getD 4 0, body.getD 5 0, body.getD 6 0,
    body.getD 7 0]

/-- The packet number in a TKIP header. -/
def tkipNumber (body : List UInt8) : Nat :=
  leValue [body.getD 2 0, body.getD 0 0, body.getD 4 0, body.getD 5 0, body.getD 6 0,
    body.getD 7 0]

/-- The header of CCMP has 8 bytes and the integrity code at the end as many. -/
def ccmpContent (body : List UInt8) : List UInt8 := slice body 8 (body.length - 16)

/-- The entry accepts a body with a CCMP header. -/
structure CcmpAccepts (k : KeyMetadata) (body : List UInt8) : Prop where
  cipher : k.cipher = .ccmp
  size : 16 ≤ body.length
  extIv : body.getD 3 0 &&& 0x20 ≠ 0
  newer : leValue k.rxSequence.toList < ccmpNumber body

instance (k : KeyMetadata) (body : List UInt8) : Decidable (CcmpAccepts k body) :=
  decidable_of_iff (k.cipher = .ccmp ∧ 16 ≤ body.length ∧ body.getD 3 0 &&& 0x20 ≠ 0 ∧
      leValue k.rxSequence.toList < ccmpNumber body)
    ⟨fun h => ⟨h.1, h.2.1, h.2.2.1, h.2.2.2⟩, fun h => ⟨h.cipher, h.size, h.extIv, h.newer⟩⟩

/-- Behind the 8 bytes of a TKIP header, and in front of the integrity code of 8 bytes and the
check value of 4. -/
def tkipContent (body : List UInt8) : List UInt8 := slice body 8 (body.length - 20)

/-- The key for the integrity code of received frames. -/
def rxMicKey (k : KeyMetadata) : FixedBytes 8 := (FixedBytes.zero 8).copy (slice k.key 24 8)

/-- The integrity code that a body should have. -/
def tkipMic (k : KeyMetadata) (header : HeaderDescription) (body : List UInt8) : FixedBytes 8 :=
  michaelMic (rxMicKey k) (addresses header).1 (addresses header).2 0 (tkipContent body)

/-- The entry accepts a body with a TKIP header. -/
structure TkipAccepts (k : KeyMetadata) (header : HeaderDescription) (body : List UInt8) :
    Prop where
  cipher : k.cipher = .tkip
  type : frameControlGetType header.frameControl = frameControlTypeData
  subtype : frameControlGetSubtype header.frameControl = frameControlSubtypeData
  size : 20 ≤ body.length
  extIv : body.getD 3 0 &&& 0x20 ≠ 0
  seed : body.getD 1 0 = (body.getD 0 0 ||| 0x20) &&& 0x7f
  key : k.key.length = 32
  newer : leValue k.rxSequence.toList < tkipNumber body
  mic : slice body (body.length - 12) 8 = (tkipMic k header body).toList

instance (k : KeyMetadata) (header : HeaderDescription) (body : List UInt8) :
    Decidable (TkipAccepts k header body) :=
  decidable_of_iff (k.cipher = .tkip ∧ frameControlGetType header.frameControl =
        frameControlTypeData ∧
      frameControlGetSubtype header.frameControl = frameControlSubtypeData ∧ 20 ≤ body.length ∧
      body.getD 3 0 &&& 0x20 ≠ 0 ∧ body.getD 1 0 = (body.getD 0 0 ||| 0x20) &&& 0x7f ∧
      k.key.length = 32 ∧ leValue k.rxSequence.toList < tkipNumber body ∧
      slice body (body.length - 12) 8 = (tkipMic k header body).toList)
    ⟨fun h => ⟨h.1, h.2.1, h.2.2.1, h.2.2.2.1, h.2.2.2.2.1, h.2.2.2.2.2.1, h.2.2.2.2.2.2.1,
        h.2.2.2.2.2.2.2.1, h.2.2.2.2.2.2.2.2⟩,
      fun h => ⟨h.cipher, h.type, h.subtype, h.size, h.extIv, h.seed, h.key, h.newer, h.mic⟩⟩

/-- The entry that a cipher header names: the first one with its index that matches. -/
def selectEntry (own : MacAddress) (keys : List KeyMetadata) (header : HeaderDescription)
    (body : List UInt8) : Option KeyMetadata :=
  if body.length < 4 then none
  else keys.find? fun k => k.index == body.getD 3 0 >>> 6 && keyMatchesHeader own header k

/-- What is left of a body, if it is not protected or its entry accepts it. -/
def unprotect (own : MacAddress) (keys : List KeyMetadata) (header : HeaderDescription)
    (body : List UInt8) : Option (List UInt8) :=
  if hasFlag header.frameControl frameControlProtectedFrame then
    (selectEntry own keys header body).bind fun k =>
      if CcmpAccepts k body then some (ccmpContent body)
      else if TkipAccepts k header body then some (tkipContent body)
      else none
  else some body

/-! ## The frame -/

/-- An LLC/SNAP header of 8 bytes, of which the last two are the ethertype, makes way for the
Ethernet header. -/
def ethernetFrame (header : HeaderDescription) (content : List UInt8) : Option (List UInt8) :=
  if 8 ≤ content.length ∧ content.take 6 = [0xaa, 0xaa, 0x03, 0x00, 0x00, 0x00] then
    some ((addresses header).1.toList ++ (addresses header).2.toList ++ slice content 6 2 ++
      content.drop 8)
  else none

/-- The body of a packet, behind the header of a data frame. -/
def dataBody (packet : List UInt8) : List UInt8 := packet.drop (dataHeaderSize packet)

/-- The Ethernet frame that a packet stands for, if the device takes it. -/
def decode (device : Device) (packet : List UInt8) : Option (List UInt8) :=
  let header := dataHeader packet
  if IsDataFrame packet ∧ ForDevice device.macAddress header ∧
      ¬ IsDuplicate device.association header then
    (unprotect device.macAddress device.keys header (dataBody packet)).bind (ethernetFrame header)
  else none

end Decoder

end U80211
