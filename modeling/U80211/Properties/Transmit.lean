import U80211.Data
import U80211.Properties.HeaderCodec
import U80211.Properties.Keys

/-!
# What the transmit path puts into the buffer

* `serializeHeader_spec`: a header is put in front
* `prepareCcmpTx_spec`, `prepareTkipTx_spec`: so is the header of a cipher
* `transmitConvert_spec`: what is left to do once the Ethernet header has been converted
-/

namespace U80211

open Memory TxBufferDescriptor

/-! ## Headers -/

/-- The header is that of a data frame with three addresses. -/
structure HeaderDescription.IsData (header : HeaderDescription) : Prop where
  type : frameControlGetType header.frameControl = frameControlTypeData
  subtype : frameControlGetSubtype header.frameControl = frameControlSubtypeData
  threeAddress : header.isFourAddress = false

theorem HeaderDescription.IsData.supported {header : HeaderDescription} (h : header.IsData) :
    header.Supported := Or.inr ⟨h.type, Or.inl h.subtype⟩

theorem HeaderDescription.IsData.not_hasAddress4 {header : HeaderDescription} (h : header.IsData) :
    ¬ header.HasAddress4 := fun h4 => Bool.false_ne_true (h.threeAddress.symm.trans h4.2)

theorem HeaderDescription.IsData.wire {header : HeaderDescription} (h : header.IsData) :
    header.wire = header.bytes := wire_of_three h.not_hasAddress4

/-- **A data header with three addresses is put in front of what the descriptor holds.** -/
theorem serializeHeader_spec {header : HeaderDescription} {d : TxBufferDescriptor} {bs : List UInt8}
    (hdata : header.IsData) (h : d.Holds bs) (hn : 24 ≤ d.currentOffset) :
    ∃ d', serializeHeader header d = some (.ok d') ∧ d'.Holds (header.bytes ++ bs) ∧
      d.Behind d' 24 := by
  have hspec := serializeHeader_wire hdata.supported h (by
    rw [hdata.wire, header.length_bytes]
    exact hn)
  rw [hdata.wire, header.length_bytes] at hspec
  exact hspec

theorem transmitFrame_spec (device : Device) {header : HeaderDescription} {d : TxBufferDescriptor}
    {bs : List UInt8} (options : TransmitOptions) (hdata : header.IsData) (h : d.Holds bs)
    (hn : 24 ≤ d.currentOffset) :
    ∃ d', transmitFrame device header d options = some (device, .transmitted d' options) ∧
      d'.Holds (header.bytes ++ bs) ∧ d.Behind d' 24 := by
  obtain ⟨d', hs, hh, hb⟩ := serializeHeader_spec hdata h hn
  refine ⟨d', ?_, hh, hb⟩
  rw [transmitFrame, hs]
  rfl

/-! ## Cipher headers -/

theorem prepareCcmpTx_spec {device : Device} {header : HeaderDescription} {key : UInt8}
    {d : TxBufferDescriptor} {bs : List UInt8} {sequence : FixedBytes 6} {keys : List KeyMetadata}
    (hk : keyNextTxSequence device.macAddress device.keys header key .ccmp = some (sequence, keys))
    (h : d.Holds bs) (hn : ccmpHeaderSize ≤ d.currentOffset) :
    ∃ d', prepareCcmpTx device header key d =
        some (.ok ({ device with keys }, header.protect, d')) ∧
      d'.Holds (ccmpHeader key sequence ++ bs) ∧ d.Behind d' 8 := by
  obtain ⟨d', hw, hh, hb⟩ := h.prepend (ccmpHeader key sequence) hn
  refine ⟨d', ?_, hh, hb⟩
  have hw' : ({ d with currentOffset := d.currentOffset - ccmpHeaderSize } :
      TxBufferDescriptor).write (d.data + (d.currentOffset - ccmpHeaderSize))
        (ccmpHeader key sequence) = some d' := hw
  simp only [prepareCcmpTx, allocateSpace_of_le hn, hk, hw', Option.bind_eq_bind, Option.bind_some]

/-- Without a packet number the frame is given up with the space for the header taken. -/
theorem prepareCcmpTx_of_none {device : Device} {header : HeaderDescription} {key : UInt8}
    {d : TxBufferDescriptor}
    (hk : keyNextTxSequence device.macAddress device.keys header key .ccmp = none)
    (hn : ccmpHeaderSize ≤ d.currentOffset) :
    prepareCcmpTx device header key d = some (.error (.notPermitted,
      { d with currentOffset := d.currentOffset - ccmpHeaderSize })) := by
  simp only [prepareCcmpTx, allocateSpace_of_le hn, hk]

theorem prepareTkipTx_spec {device : Device} {header : HeaderDescription} {key : UInt8}
    {d : TxBufferDescriptor} {bs : List UInt8} {sequence : FixedBytes 6} {mic : FixedBytes 8}
    {keys : List KeyMetadata}
    (hk : keyPrepareTkipTx device.macAddress device.keys (transmitTkipData header key bs) =
      some (some (sequence, mic, keys)))
    (h : d.Holds bs) (hn : tkipHeaderSize ≤ d.currentOffset)
    (ht : d.data + d.size + tkipMicSize ≤ d.buffer.length) :
    ∃ d', prepareTkipTx device header key d =
        some (.ok ({ device with keys }, header.protect, d')) ∧
      d'.Holds (tkipHeader key sequence ++ bs ++ mic.toList) ∧ d'.data = d.data ∧
      d'.currentOffset = d.currentOffset - 8 ∧ d'.buffer.length = d.buffer.length := by
  obtain ⟨d₁, hw₁, hh₁, hb₁⟩ := h.prepend (tkipHeader key sequence) hn
  have hmic : mic.toList.length = tkipMicSize := mic.length_toList
  obtain ⟨d₂, hw₂, hh₂, hb₂⟩ := hh₁.append mic.toList
    (by rw [hmic, hb₁.data, hb₁.size, hb₁.buffer]; exact ht)
  rw [hmic] at hh₂
  refine ⟨{ d₂ with size := d₂.size + tkipMicSize }, ?_, hh₂, hb₂.data.trans hb₁.data,
    hb₂.currentOffset.trans hb₁.currentOffset, hb₂.buffer.trans hb₁.buffer⟩
  have hw' : ({ d with currentOffset := d.currentOffset - tkipHeaderSize } :
      TxBufferDescriptor).write (d.data + (d.currentOffset - tkipHeaderSize))
        (tkipHeader key sequence) = some d₁ := hw₁
  simp only [prepareTkipTx, allocateSpace_of_le hn, h.readAll, hk, hw', hw₂, Option.bind_eq_bind,
    Option.bind_some]

theorem prepareTkipTx_of_none {device : Device} {header : HeaderDescription} {key : UInt8}
    {d : TxBufferDescriptor} {bs : List UInt8}
    (hk : keyPrepareTkipTx device.macAddress device.keys (transmitTkipData header key bs) =
      some none) (h : d.Holds bs) (hn : tkipHeaderSize ≤ d.currentOffset) :
    prepareTkipTx device header key d = some (.error (.notPermitted,
      { d with currentOffset := d.currentOffset - tkipHeaderSize })) := by
  simp only [prepareTkipTx, allocateSpace_of_le hn, h.readAll, hk, Option.bind_eq_bind,
    Option.bind_some]

/-! ## The key -/

/-- Frames can be protected with the key: its index fits into the two bits of a cipher header, the
cipher is one of the two that are supported, a TKIP key has its two integrity keys, and there is a
packet number left. -/
structure KeyMetadata.Usable (k : KeyMetadata) : Prop where
  index : k.index ≤ 3
  cipher : k.cipher = .ccmp ∨ k.cipher = .tkip ∧ k.key.length = tkipKeySize
  sequence : leValue k.txSequence.toList + 1 < 256 ^ 6

/-- The cipher header in front of a protected body. -/
def cipherHeader (cipher : Cipher) (key : UInt8) (sequence : FixedBytes 6) : List UInt8 :=
  if cipher = .tkip then tkipHeader key sequence else ccmpHeader key sequence

variable {device : Device} {header : HeaderDescription} {d : TxBufferDescriptor} {bs : List UInt8}
  {k : KeyMetadata}

/-- Without a key the frame leaves as it is. -/
theorem transmitWithKey_of_none
    (hk : device.keys.find? (keyMatchesHeader device.macAddress header) = none)
    (hdata : header.IsData) (h : d.Holds bs) (hn : 24 ≤ d.currentOffset) :
    ∃ d', transmitWithKey device header d =
        some (device, .transmitted d' { key := none, cipher := none }) ∧
      d'.Holds (header.bytes ++ bs) ∧ d.Behind d' 24 := by
  rw [transmitWithKey, selectKey_of_none hk]
  exact transmitFrame_spec _ _ hdata h hn

/-- With an entry whose index fits, its cipher decides. -/
theorem transmitWithKey_of_first
    (hk : device.keys.find? (keyMatchesHeader device.macAddress header) = some k)
    (hindex : k.index ≤ 3) :
    transmitWithKey device header d =
      (prepareCipherTx device header k.index d (some k.cipher)).bind fun
        | .error (status, d) => some (device, .freed d status)
        | .ok (device, header, d) =>
          transmitFrame device header d { key := some k.index, cipher := some k.cipher } := by
  rw [transmitWithKey, selectKey_of_first hk]
  dsimp only
  rw [if_neg (UInt8.not_lt.mpr hindex), selectCipherByIndex_of_first hk]
  rfl

/-- The frame leaves protected with the key, with a packet number that has not been used yet. -/
structure SentWith (k : KeyMetadata) (header : HeaderDescription) (bs : List UInt8)
    (d : TxBufferDescriptor) (sequence : FixedBytes 6) (mic : List UInt8) (d' : TxBufferDescriptor)
    (options : TransmitOptions) : Prop where
  next : leValue sequence.toList = leValue k.txSequence.toList + 1
  options : options = { key := some k.index, cipher := some k.cipher }
  holds : d'.Holds (header.protect.bytes ++ (cipherHeader k.cipher k.index sequence ++ bs ++ mic))
  data : d'.data = d.data
  buffer : d'.buffer.length = d.buffer.length

theorem transmitWithKey_of_ccmp
    (hk : device.keys.find? (keyMatchesHeader device.macAddress header) = some k)
    (hu : k.Usable) (hc : k.cipher = .ccmp) (hdata : header.protect.IsData) (h : d.Holds bs)
    (hn : 32 ≤ d.currentOffset) :
    ∃ sequence device' d' options,
      transmitWithKey device header d = some (device', .transmitted d' options) ∧
      SentWith k header bs d sequence [] d' options := by
  obtain ⟨sequence, hs⟩ := increment_isSome_iff.mpr hu.sequence
  obtain ⟨keys, hkeys⟩ := keyNextTxSequence_of_first hk hs
  rw [hc] at hkeys
  obtain ⟨d₁, hp, hh₁, hb₁⟩ := prepareCcmpTx_spec hkeys h (show 8 ≤ _ by omega)
  obtain ⟨d₂, ht, hh₂, hb₂⟩ := transmitFrame_spec { device with keys }
    { key := some k.index, cipher := some .ccmp } hdata hh₁ (by rw [hb₁.currentOffset]; omega)
  refine ⟨sequence, { device with keys }, d₂, _, ?_, increment_eq_some hs, by rw [hc], ?_,
    hb₂.data.trans hb₁.data, hb₂.buffer.trans hb₁.buffer⟩
  · rw [transmitWithKey_of_first hk hu.index, hc, prepareCipherTx, hp]
    exact ht
  · rw [hc, cipherHeader, if_neg (by decide), List.append_nil]
    exact hh₂

theorem transmitWithKey_of_tkip (micKey : FixedBytes 8)
    (hk : device.keys.find? (keyMatchesHeader device.macAddress header) = some k)
    (hu : k.Usable) (hc : k.cipher = .tkip)
    (hm : micKey.toList = slice k.key tkipTxMicKeyOffset 8) (hdata : header.protect.IsData)
    (h : d.Holds bs) (hn : 32 ≤ d.currentOffset)
    (ht : d.data + d.size + txBufferTailroom ≤ d.buffer.length) :
    ∃ sequence device' d' options, transmitWithKey device header d =
        some (device', .transmitted d' options) ∧ SentWith k header bs d sequence
          (michaelMic micKey header.address3 header.address2 0 bs).toList d' options := by
  have hlen : k.key.length = tkipKeySize := by
    rcases hu.cipher with hccmp | ⟨-, hlen⟩
    · rw [hc] at hccmp
      cases hccmp
    · exact hlen
  obtain ⟨sequence, hs⟩ := increment_isSome_iff.mpr hu.sequence
  obtain ⟨keys, hkeys⟩ := keyPrepareTkipTx_of_first (transmitTkipData header k.index bs) hk
    rfl hc hlen hs hm
  obtain ⟨d₁, hp, hh₁, hd₁, ho₁, hb₁⟩ := prepareTkipTx_spec hkeys h (show 8 ≤ _ by omega) ht
  obtain ⟨d₂, ht₂, hh₂, hb₂⟩ := transmitFrame_spec { device with keys }
    { key := some k.index, cipher := some .tkip } hdata hh₁ (by rw [ho₁]; omega)
  refine ⟨sequence, { device with keys }, d₂, _, ?_, increment_eq_some hs, by rw [hc], ?_,
    hb₂.data.trans hd₁, hb₂.buffer.trans hb₁⟩
  · rw [transmitWithKey_of_first hk hu.index, hc, prepareCipherTx, hp]
    exact ht₂
  · rw [hc, cipherHeader, if_pos rfl]
    exact hh₂

/-- **With a key that can be used the frame leaves protected.** -/
theorem transmitWithKey_of_usable
    (hk : device.keys.find? (keyMatchesHeader device.macAddress header) = some k)
    (hu : k.Usable) (hdata : header.protect.IsData) (h : d.Holds bs) (hn : 32 ≤ d.currentOffset)
    (ht : d.data + d.size + txBufferTailroom ≤ d.buffer.length) :
    ∃ sequence mic device' d' options, transmitWithKey device header d =
        some (device', .transmitted d' options) ∧
      SentWith k header bs d sequence mic d' options := by
  rcases hu.cipher with hc | ⟨hc, hlen⟩
  · obtain ⟨sequence, device', d', options, hs, hw⟩ := transmitWithKey_of_ccmp hk hu hc hdata h hn
    exact ⟨sequence, _, device', d', options, hs, hw⟩
  · have hmic : tkipTxMicKeyOffset + 8 ≤ k.key.length := by
      rw [hlen]
      decide
    obtain ⟨sequence, device', d', options, hs, hw⟩ := transmitWithKey_of_tkip
      ⟨slice k.key tkipTxMicKeyOffset 8, length_slice hmic⟩ hk hu hc rfl hdata h hn ht
    exact ⟨sequence, _, device', d', options, hs, hw⟩

/-- **With a key that cannot be used the buffer is freed.** -/
theorem transmitWithKey_of_unusable
    (hk : device.keys.find? (keyMatchesHeader device.macAddress header) = some k)
    (hu : ¬ k.Usable) (h : d.Holds bs) (hn : 32 ≤ d.currentOffset) :
    ∃ d' status, transmitWithKey device header d = some (device, .freed d' status) ∧
      status ≠ .success := by
  by_cases hindex : 3 < k.index
  · refine ⟨d, .notPermitted, ?_, by decide⟩
    rw [transmitWithKey, selectKey_of_first hk]
    exact if_pos hindex
  · have hle := UInt8.not_lt.mp hindex
    -- either there is a packet number left or none can be drawn
    have hmax : leValue k.txSequence.toList + 1 < 256 ^ 6 ∨ k.txSequence.increment = none := by
      cases hs : k.txSequence.increment with
      | none => exact Or.inr rfl
      | some sequence => exact Or.inl (increment_isSome_iff.mp ⟨sequence, hs⟩)
    rw [transmitWithKey_of_first hk hle]
    cases hc : k.cipher with
    | ccmp =>
      refine ⟨{ d with currentOffset := d.currentOffset - ccmpHeaderSize }, .notPermitted, ?_,
        by decide⟩
      have hs : k.txSequence.increment = none :=
        hmax.resolve_left fun hs => hu ⟨hle, Or.inl hc, hs⟩
      rw [prepareCipherTx, prepareCcmpTx_of_none (keyNextTxSequence_of_max hk hs .ccmp)
        (show 8 ≤ _ by omega)]
      rfl
    | tkip =>
      refine ⟨{ d with currentOffset := d.currentOffset - tkipHeaderSize }, .notPermitted, ?_,
        by decide⟩
      have hunusable : k.key.length ≠ tkipKeySize ∨ k.txSequence.increment = none :=
        hmax.imp_left fun hs hlen => hu ⟨hle, Or.inr ⟨hc, hlen⟩, hs⟩
      rw [prepareCipherTx, prepareTkipTx_of_none
        (keyPrepareTkipTx_of_unusable (transmitTkipData header k.index bs) hk rfl hunusable) h
        (show 8 ≤ _ by omega)]
      rfl
    | wep40 => exact ⟨d, .unsupported, rfl, by decide⟩
    | wep104 => exact ⟨d, .unsupported, rfl, by decide⟩

/-! ## The Ethernet header -/

/-- The descriptor is one that `u80211_allocate_tx_buffer` has returned and the caller has put the
frame into: there is room in front of it and behind it. -/
structure TxBufferDescriptor.Carries (d : TxBufferDescriptor) (frame : List UInt8) : Prop where
  headroom : txBufferHeadroom ≤ d.data
  tailroom : d.data + d.size + txBufferTailroom ≤ d.buffer.length
  holds : d.Holds frame

/-- What a caller of `u80211_allocate_tx_buffer` does with an Ethernet frame. -/
def placeFrame (d : TxBufferDescriptor) (frame : List UInt8) : Option TxBufferDescriptor :=
  match d.allocateSpace frame.length with
  | none => none
  | some (off, d) => d.write off frame

/-- The driver answers each request with a buffer of that size with nothing in it. -/
def AllocatesExactly (allocate : Nat → Except Status TxBufferDescriptor) : Prop :=
  ∀ size, ∃ d, allocate size = .ok d ∧ d.data = 0 ∧ d.buffer.length = size ∧ d.size = size ∧
    d.currentOffset = size

/-- Every Ethernet frame fits into the buffer that `u80211_allocate_tx_buffer` returns. -/
theorem placeFrame_allocateTxBuffer {allocate : Nat → Except Status TxBufferDescriptor}
    (hallocate : AllocatesExactly allocate) {frame : List UInt8}
    (hmax : frame.length ≤ ethernetMaxFrameSize) :
    ∃ d₁ d₂, allocateTxBuffer allocate = .ok d₁ ∧ placeFrame d₁ frame = some d₂ ∧
      d₂.Carries frame ∧ d₂.data = txBufferHeadroom ∧
      d₂.buffer.length = ethernetMaxFrameSize + txBufferHeadroom + txBufferTailroom := by
  obtain ⟨⟨buffer, data, size, offset⟩, hd, hdata, hbuffer, hsize, hoffset⟩ :=
    hallocate (ethernetMaxFrameSize + txBufferHeadroom + txBufferTailroom)
  dsimp only at hdata hbuffer hsize hoffset
  subst hdata hsize hoffset
  -- what the library keeps for itself is taken off the driver's numbers
  obtain ⟨d₁, hd₁⟩ : ∃ d₁ : TxBufferDescriptor, d₁ =
    { buffer
      data := txBufferHeadroom
      size := ethernetMaxFrameSize
      currentOffset := ethernetMaxFrameSize } := ⟨_, rfl⟩
  have hallocated : allocateTxBuffer allocate = .ok d₁ := by
    rw [allocateTxBuffer, hd, hd₁]
    rfl
  have hbounds : d₁.data + d₁.size + txBufferTailroom ≤ d₁.buffer.length := by
    rw [hd₁]
    exact Nat.le_of_eq hbuffer.symm
  have hempty : d₁.Holds [] := by
    refine ⟨?_, Nat.le_trans (Nat.le_add_right _ _) hbounds, ?_⟩
    · exact Nat.le_of_eq (by rw [hd₁])
    · rw [hd₁, TxBufferDescriptor.content, Nat.sub_self, slice, List.take_zero]
  have hfits : frame.length ≤ d₁.currentOffset := by
    rw [hd₁]
    exact hmax
  obtain ⟨d₂, hw, hh, hb⟩ := hempty.prepend frame hfits
  rw [List.append_nil] at hh
  refine ⟨d₁, d₂, hallocated, ?_, ⟨?_, ?_, hh⟩, ?_, ?_⟩
  · rw [placeFrame, TxBufferDescriptor.allocateSpace_of_le hfits]
    exact hw
  · exact Nat.le_of_eq (by rw [hb.data, hd₁])
  · rw [hb.data, hb.size, hb.buffer]
    exact hbounds
  · rw [hb.data, hd₁]
  · rw [hb.buffer, hd₁]
    exact hbuffer


/-- The header is one that `u80211_transmit_buffer` makes. -/
structure HeaderDescription.IsToDs (header : HeaderDescription) : Prop extends header.IsData where
  toDs : hasFlag header.frameControl frameControlToDs = true
  fromDs : hasFlag header.frameControl frameControlFromDs = false
  notRetry : hasFlag header.frameControl frameControlRetry = false
  address4 : header.address4 = .zero 6

/-- All but the fourth address is a matter of the frame control field. -/
theorem isToDs_of_frameControl {x : UInt16} (hx : header.frameControl = x)
    (haddress4 : header.address4 = .zero 6)
    (h : frameControlGetType x = frameControlTypeData ∧
      frameControlGetSubtype x = frameControlSubtypeData ∧
      hasFlag x frameControlToDs = true ∧ hasFlag x frameControlFromDs = false ∧
      hasFlag x frameControlRetry = false) : header.IsToDs := by
  subst hx
  obtain ⟨htype, hsubtype, hto, hfrom, hretry⟩ := h
  refine ⟨⟨htype, hsubtype, ?_⟩, hto, hfrom, hretry, haddress4⟩
  rw [HeaderDescription.isFourAddress, hfrom, Bool.and_false]

section TransmitHeader

variable {ap : AccessPoint} {source destination : MacAddress} {sequenceControl : UInt16}

theorem isToDs_transmitHeader : (transmitHeader ap source destination sequenceControl).IsToDs :=
  isToDs_of_frameControl (x := frameControlTypeData <<< 2 ||| frameControlToDs) rfl rfl (by decide)

theorem isToDs_protect_transmitHeader :
    (transmitHeader ap source destination sequenceControl).protect.IsToDs :=
  isToDs_of_frameControl
    (x := frameControlTypeData <<< 2 ||| frameControlToDs ||| frameControlProtectedFrame) rfl rfl
    (by decide)

theorem hasFlag_transmitHeader_protected :
    hasFlag (transmitHeader ap source destination sequenceControl).frameControl
      frameControlProtectedFrame = false :=
  show hasFlag (frameControlTypeData <<< 2 ||| frameControlToDs) frameControlProtectedFrame = false
    by decide

theorem hasFlag_protect_protected :
    hasFlag (transmitHeader ap source destination sequenceControl).protect.frameControl
      frameControlProtectedFrame = true :=
  show hasFlag (frameControlTypeData <<< 2 ||| frameControlToDs ||| frameControlProtectedFrame)
    frameControlProtectedFrame = true by decide

end TransmitHeader

/-- A frame that is long enough starts with an Ethernet header. -/
theorem exists_ethernetHeader {frame : List UInt8} (h : ethernetHeaderSize ≤ frame.length) :
    ∃ (destination source : MacAddress) (ethertype : FixedBytes 2) (payload : List UInt8),
      frame = destination.toList ++ (source.toList ++ (ethertype.toList ++ payload)) := by
  rw [ethernetHeaderSize] at h
  refine ⟨⟨frame.take 6, by rw [List.length_take]; omega⟩,
    ⟨(frame.drop 6).take 6, by rw [List.length_take, List.length_drop]; omega⟩,
    ⟨(frame.drop 12).take 2, by rw [List.length_take, List.length_drop]; omega⟩,
    frame.drop 14, ?_⟩
  have h₁₂ := List.take_append_drop 2 (frame.drop 12)
  have h₆ := List.take_append_drop 6 (frame.drop 6)
  rw [List.drop_drop] at h₁₂ h₆
  show frame = frame.take 6 ++ ((frame.drop 6).take 6 ++ ((frame.drop 12).take 2 ++ frame.drop 14))
  rw [h₁₂, h₆, List.take_append_drop]

theorem release_hold (device : Device) (ap : AccessPoint) :
    (device.hold ap).release ap = device := by
  have href : (fun a => (device.references a + if a = ap then 1 else 0) -
      if a = ap then 1 else 0) = device.references := by
    funext a
    omega
  unfold Device.release Device.hold
  dsimp only
  rw [href]

/-- The device with the sequence number of a frame taken. -/
def Device.takeSequence (device : Device) : Device :=
  { device with txSequenceControl := device.txSequenceControl + 0x10 }

/-- **The Ethernet header becomes an LLC/SNAP header.** -/
theorem transmitConvert_spec {ap : AccessPoint} {frame : List UInt8}
    (hs : device.association.state = .associated)
    (hap : device.association.ap = some ap) (h : d.Carries frame) {destination source : MacAddress}
    {ethertype : FixedBytes 2} {payload : List UInt8}
    (hf : frame = destination.toList ++ (source.toList ++ (ethertype.toList ++ payload))) :
    ∃ d', transmitConvert device d = some (device.takeSequence,
        .ok (transmitHeader ap source destination device.txSequenceControl, d')) ∧
      d'.Holds (byteHeader ++ ethertype.toList ++ payload) ∧
      d'.data = d.data - txBufferHeadroom ∧ 70 ≤ d'.currentOffset ∧
      d'.data + d'.size + txBufferTailroom ≤ d'.buffer.length ∧
      d'.buffer.length = d.buffer.length := by
  obtain ⟨hhead, htail, hholds⟩ := h
  have hdst := destination.length_toList
  have hsrc := source.length_toList
  have het := ethertype.length_toList
  have hlen : frame.length = 14 + payload.length := by
    rw [hf]
    simp only [List.length_append, hdst, hsrc, het]
    omega
  have hl := hholds.length
  have hbase := hholds.rebase hhead
  -- the three parts of the Ethernet header
  have hr₁ := hbase.read (k := 0) (n := 6) [] (by decide) hf rfl
  have hr₂ := hbase.read (k := 6) (n := 6) _ (by decide) hf hdst
  have hr₃ := hbase.read (k := 12) (n := 2) (destination.toList ++ source.toList)
    (by decide) (by rw [hf, List.append_assoc]) (by rw [List.length_append, hdst, hsrc])
  -- the LLC/SNAP header takes the place of its end
  have hpayload : frame.drop 14 = payload := by
    refine drop_of_append (a := destination.toList ++ (source.toList ++ ethertype.toList)) ?_ ?_
    · rw [hf]
      simp only [List.append_assoc]
    · simp only [List.length_append, hdst, hsrc, het]
  have hskip := hbase.skip (n := 14) (by omega)
  rw [hpayload] at hskip
  have hllc : (byteHeader ++ ethertype.toList).length = 8 := by
    rw [List.length_append, het]
    rfl
  obtain ⟨d', hw, hh, hb⟩ := hskip.prepend (byteHeader ++ ethertype.toList)
    (by rw [hllc]; show 8 ≤ d.currentOffset + txBufferHeadroom + 14; omega)
  rw [hllc] at hw hb
  rw [← write_append, Option.bind_eq_some_iff] at hw
  obtain ⟨d₁, hw₁, hw₂⟩ := hw
  refine ⟨d', ?_, hh, hb.data, ?_, ?_, hb.buffer⟩
  · have hsize : ¬ d.size + txBufferHeadroom - (d.currentOffset + txBufferHeadroom) <
        ethernetHeaderSize := by
      rw [show ethernetHeaderSize = 14 from rfl]
      omega
    have halloc := allocateSpace_of_le (n := llcSnapSize) (d :=
      { buffer := d.buffer, data := d.data - txBufferHeadroom, size := d.size + txBufferHeadroom
        currentOffset := d.currentOffset + txBufferHeadroom + ethernetHeaderSize })
      (by show 8 ≤ d.currentOffset + txBufferHeadroom + 14; omega)
    have hw₁' : ({ d with
        data := d.data - txBufferHeadroom
        size := d.size + txBufferHeadroom
        currentOffset := d.currentOffset + txBufferHeadroom + ethernetHeaderSize - llcSnapSize } :
          TxBufferDescriptor).write (d.data - txBufferHeadroom +
            (d.currentOffset + txBufferHeadroom + ethernetHeaderSize - llcSnapSize)) byteHeader =
        some d₁ := hw₁
    have hw₂' : d₁.write (d.data - txBufferHeadroom +
        (d.currentOffset + txBufferHeadroom + ethernetHeaderSize - llcSnapSize) + 6)
          ethertype.toList = some d' := hw₂
    rw [Nat.add_zero] at hr₁
    simp only [transmitConvert, if_neg (Nat.not_lt.mpr hhead), hap, hs, ne_eq, not_true_eq_false,
      if_false, if_neg hsize, hr₁, hr₂, hr₃, Option.bind_eq_bind, Option.bind_some, halloc, hw₁',
      hw₂']
    exact congrArg (fun dev => some (dev, Except.ok (_, d')))
      (release_hold device.takeSequence ap)
  · rw [hb.currentOffset]
    show 70 ≤ d.currentOffset + txBufferHeadroom + 14 - 8
    unfold txBufferHeadroom
    omega
  · rw [hb.data, hb.size, hb.buffer]
    show d.data - txBufferHeadroom + (d.size + txBufferHeadroom) + txBufferTailroom ≤
      d.buffer.length
    omega

/-- A frame that is too short for an Ethernet header is not sent. -/
theorem transmitConvert_of_short {ap : AccessPoint} {frame : List UInt8}
    (hs : device.association.state = .associated) (hap : device.association.ap = some ap)
    (h : d.Carries frame) (hshort : frame.length < ethernetHeaderSize) :
    ∃ d', transmitConvert device d = some (device, .error (.freed d' .notEnoughSpace)) := by
  obtain ⟨hhead, htail, hholds⟩ := h
  have hsize : d.size + txBufferHeadroom - (d.currentOffset + txBufferHeadroom) <
      ethernetHeaderSize := by
    rw [hholds.length] at hshort
    omega
  simp only [transmitConvert, if_neg (Nat.not_lt.mpr hhead), hap, hs, ne_eq, not_true_eq_false,
    if_false, if_pos hsize, release_hold]
  exact ⟨_, rfl⟩

/-- What is left to do after the conversion is the selection of the key and the 802.11 header. -/
theorem transmitBuffer_of_convert {device' : Device} {header : HeaderDescription}
    {d' : TxBufferDescriptor} (h : transmitConvert device d = some (device', .ok (header, d'))) :
    transmitBuffer device d = transmitWithKey device' header d' := by
  rw [transmitBuffer, h]
  rfl

end U80211
