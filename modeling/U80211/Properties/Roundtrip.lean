import U80211.Properties.Delivery
import U80211.Properties.Transmit

/-!
# Receiving undoes transmitting

* `deserializeHeader_bytes`: the header that has been put in front is read back
* `processCcmpRx_body`, `processTkipRx_body`: a cipher header is removed
* `processDataPacket_body`: the Ethernet header is put back
* `receive_transmit`: **an Ethernet frame arrives as it was sent**
-/

namespace U80211

open Memory

/-! ## The 802.11 header -/

/-- **The header that has been put in front of a body is read back.** -/
theorem deserializeHeader_bytes {header : HeaderDescription} (hdata : header.IsData)
    (haddress4 : header.address4 = .zero 6) (body : List UInt8) :
    deserializeHeader (header.bytes ++ body) =
      some (.ok { header, dataStart := 24, dataSize := body.length }) := by
  have h := deserializeHeader_wire hdata.supported body
  rw [hdata.wire, header.length_bytes, HeaderDescription.carried, if_neg hdata.not_hasAddress4,
    ← haddress4] at h
  exact h

/-! ## The Ethernet header -/

/-- **The Ethernet header takes the place of the LLC/SNAP header again.** -/
theorem processDataPacket_body {packet : List UInt8} {header : HeaderDescription} {data : Nat}
    {destination source : MacAddress} {ethertype : FixedBytes 2} {payload rest : List UInt8}
    (haddresses : dataPacketAddresses header = (destination, source)) (hstart : 6 ≤ data)
    (hdrop : packet.drop data = byteHeader ++ (ethertype.toList ++ (payload ++ rest))) :
    processDataPacket packet header data (8 + payload.length) =
      some (some (destination.toList ++ (source.toList ++ (ethertype.toList ++ payload)))) := by
  have het := ethertype.length_toList
  have hlen : packet.length - data = 8 + payload.length + rest.length := by
    rw [← List.length_drop, hdrop]
    simp only [List.length_append, het, show byteHeader.length = 6 from rfl]
    omega
  have hbyte : slice packet data 6 = byteHeader := slice_of_drop hdrop rfl
  have hdrop₆ := drop_of_append hdrop (show byteHeader.length = 6 from rfl)
  rw [List.drop_drop, ← List.append_assoc] at hdrop₆
  have hframe : slice packet (data + 6) (8 + payload.length - 6) = ethertype.toList ++ payload :=
    slice_of_drop hdrop₆ (by rw [List.length_append, het]; omega)
  rw [processDataPacket_eq hstart (by omega), if_pos ⟨Nat.le_add_right _ _, hbyte⟩, haddresses,
    hframe, List.append_assoc]

/-! ## Cipher headers -/

/-- The packet number that a CCMP header carries. -/
theorem ccmpSequence_ccmpHeader {key : UInt8} {sequence : FixedBytes 6} {h : FixedBytes 8}
    (hh : h.toList = ccmpHeader key sequence) : ccmpSequence h = sequence := by
  obtain ⟨b₀, b₁, b₂, b₃, b₄, b₅, hb⟩ := FixedBytes.eq_six sequence
  rw [FixedBytes.ext_iff', hb]
  simp [ccmpSequence, hh, ccmpHeader, hb]

theorem tkipSequence_tkipHeader {key : UInt8} {sequence : FixedBytes 6} {h : FixedBytes 8}
    (hh : h.toList = tkipHeader key sequence) : tkipSequence h = sequence := by
  obtain ⟨b₀, b₁, b₂, b₃, b₄, b₅, hb⟩ := FixedBytes.eq_six sequence
  rw [FixedBytes.ext_iff', hb]
  simp [tkipSequence, hh, tkipHeader, hb]

/-- The index of a key is read back from the byte that it shares with the extended-IV bit. -/
theorem keyId_shift {key : UInt8} (h : key ≤ 3) :
    (extIv ||| key <<< 6) >>> 6 = key ∧ (extIv ||| key <<< 6) &&& extIv ≠ 0 := by
  have hle : key.toNat ≤ 3 := UInt8.le_iff_toNat_le.mp h
  have hkey : key = UInt8.ofNat key.toNat := (UInt8.ofNat_toNat).symm
  rw [hkey]
  generalize key.toNat = n at hle
  match n, hle with
  | 0, _ | 1, _ | 2, _ | 3, _ => decide

section CipherHeaders

variable (device : Device) {packet : List UInt8} {header : HeaderDescription} {key : UInt8}
  {sequence : FixedBytes 6} {body trailer : List UInt8} {data : Nat} {r : KeyMetadata}

/-- The index of the key stands in both cipher headers. -/
theorem deserializeCipherKeyIndex_cipherHeader {cipher : Cipher} {dataSize : Nat} (hkey : key ≤ 3)
    (hdrop : packet.drop data = cipherHeader cipher key sequence ++ body) (hsize : 4 ≤ dataSize) :
    deserializeCipherKeyIndex packet data dataSize = some (some key) := by
  have hbyte : packet[data + 3]? = some (extIv ||| key <<< 6) := by
    rw [← List.getElem?_drop, hdrop, cipherHeader]
    split <;> rfl
  rw [deserializeCipherKeyIndex, if_neg (by omega), hbyte]
  simp only [Option.bind_eq_bind, Option.bind_some, (keyId_shift hkey).1]

theorem processCcmpRx_body (hkey : key ≤ 3)
    (hr : device.keys.find? (fun m => m.index == key &&
      keyMatchesHeader device.macAddress header m) = some r)
    (hc : r.cipher = .ccmp) (hs : leValue r.rxSequence.toList < leValue sequence.toList)
    (hdrop : packet.drop data = ccmpHeader key sequence ++ (body ++ trailer))
    (ht : trailer.length = ccmpMicSize) :
    ∃ keys, processCcmpRx device packet header key data (8 + body.length + trailer.length) =
      some (some ({ device with keys }, data + 8, body.length)) := by
  obtain ⟨keys, hkeys⟩ := keyUpdateRxSequence_of_first hr ⟨hc, hs⟩
  refine ⟨keys, ?_⟩
  have hread := readBytes_of_drop (n := 8) (b := ⟨ccmpHeader key sequence, rfl⟩) (by decide) hdrop
  have hid : (ccmpHeader key sequence).getD 3 0 &&& extIv ≠ 0 := (keyId_shift hkey).2
  rw [ht, processCcmpRx, if_neg (by rw [ccmpHeaderSize, ccmpMicSize]; omega), hread]
  simp only [Option.bind_eq_bind, Option.bind_some, if_neg hid,
    ccmpSequence_ccmpHeader (h := ⟨ccmpHeader key sequence, rfl⟩) rfl, hkeys]
  rw [ccmpHeaderSize, ccmpMicSize,
    subtractSize_of_le (show 8 + 8 ≤ 8 + body.length + 8 by omega), Option.bind_some,
    show 8 + body.length + 8 - (8 + 8) = body.length by omega]

theorem processTkipRx_body (hdata : header.IsData) (hkey : key ≤ 3)
    (hr : device.keys.find? (fun m => m.index == key &&
      keyMatchesHeader device.macAddress header m) = some r)
    (hc : r.cipher = .tkip) (hlen : r.key.length = tkipKeySize)
    (hs : leValue r.rxSequence.toList < leValue sequence.toList) {micKey : FixedBytes 8}
    (hm : micKey.toList = slice r.key tkipRxMicKeyOffset 8) {destination source : MacAddress}
    (haddresses : dataPacketAddresses header = (destination, source))
    (hdrop : packet.drop data = tkipHeader key sequence ++
      (body ++ ((michaelMic micKey destination source 0 body).toList ++ trailer)))
    (ht : trailer.length = tkipIcvSize) :
    ∃ keys, processTkipRx device packet header key data
        (8 + body.length + (tkipMicSize + trailer.length)) =
      some (some ({ device with keys }, data + 8, body.length)) := by
  obtain ⟨keys, hkeys⟩ := keyValidateTkipRx_of_first
    ⟨header, key, destination, source, 0, body⟩ hr
    ⟨⟨hc, hs⟩, hlen, micKey, hm, rfl⟩
  refine ⟨keys, ?_⟩
  -- header, body, integrity code and trailer follow one another
  have hread := readBytes_of_drop (n := 8) (b := ⟨tkipHeader key sequence, rfl⟩) (by decide) hdrop
  have hid : (tkipHeader key sequence).getD 3 0 &&& extIv ≠ 0 := (keyId_shift hkey).2
  have hbody := drop_of_append hdrop (show (tkipHeader key sequence).length = 8 from rfl)
  rw [List.drop_drop] at hbody
  have hmic := drop_of_append hbody rfl
  rw [List.drop_drop] at hmic
  have hreadMic := readBytes_of_drop (by decide) hmic
  have hsize : 8 + body.length + (8 + 4) - (8 + 8 + 4) = body.length := by omega
  obtain ⟨payload, hreadBody, hpayload⟩ : ∃ payload,
      readBytes packet (data + 8) body.length = some payload ∧ payload.toList = body := by
    have hend := (readBytes_eq_some hreadMic).1
    exact ⟨_, readBytes_of_le (by omega), slice_of_drop hbody rfl⟩
  rw [ht, processTkipRx, if_neg (fun h => h hdata.type), if_neg (fun h => h hdata.subtype),
    if_neg (by rw [tkipHeaderSize, tkipMicSize, tkipIcvSize]; omega), hread]
  simp only [Option.bind_eq_bind, Option.bind_some, if_neg hid]
  rw [if_neg (fun h => h rfl)]
  simp only [tkipHeaderSize, tkipMicSize, tkipIcvSize,
    subtractSize_of_le (show 8 + 8 + 4 ≤ 8 + body.length + (8 + 4) by omega), hreadBody,
    hpayload, hsize, hreadMic, haddresses,
    tkipSequence_tkipHeader (h := ⟨tkipHeader key sequence, rfl⟩) rfl, hkeys, Option.bind_some]

/-- The key that the cipher header names decides how the header is removed. -/
theorem processProtection_of_key {dataSize : Nat}
    (hflag : hasFlag header.frameControl frameControlProtectedFrame = true) (hkey : key ≤ 3)
    (hr : device.keys.find? (fun m => m.index == key &&
      keyMatchesHeader device.macAddress header m) = some r)
    (hdrop : packet.drop data = cipherHeader r.cipher key sequence ++ body)
    (hsize : 4 ≤ dataSize) :
    processProtection device packet header data dataSize =
      match r.cipher with
      | .ccmp => processCcmpRx device packet header key data dataSize
      | .tkip => processTkipRx device packet header key data dataSize
      | _ => some none := by
  rw [processProtection, hflag, if_pos rfl,
    deserializeCipherKeyIndex_cipherHeader hkey hdrop hsize]
  simp only [Option.bind_eq_bind, Option.bind_some, selectCipherByIndex_of_find? hr]
  cases r.cipher <;> rfl

end CipherHeaders

/-! ## The receive path -/

theorem associationIsDuplicate_of_not_retry {header : HeaderDescription}
    (h : hasFlag header.frameControl frameControlRetry = false) (a : Association)
    (expectedState : DeviceState) :
    ∃ a', associationIsDuplicate a header expectedState = (false, a') := by
  rw [associationIsDuplicate, h]
  split
  · exact ⟨_, rfl⟩
  · exact ⟨_, rfl⟩

theorem dataPacketAddresses_of_isToDs {header : HeaderDescription} (h : header.IsToDs) :
    dataPacketAddresses header = (header.address3, header.address2) := by
  simp only [dataPacketAddresses, h.toDs, h.fromDs, if_true, Bool.false_eq_true, if_false]

section Receive

variable {device : Device} {header : HeaderDescription} {ethertype : FixedBytes 2}
  {payload trailer : List UInt8} {sequence : FixedBytes 6} {key : UInt8} {r : KeyMetadata}

/-- **A data frame is delivered once its cipher header, if any, has been removed.** -/
theorem processPacket_of_data (h : header.IsToDs) {body : List UInt8} (pre rest : List UInt8)
    (hbody : body = pre ++ (byteHeader ++ (ethertype.toList ++ (payload ++ rest))))
    (haddress : header.address1 = device.macAddress)
    (hprotection : ∀ device₀ : Device, device₀.macAddress = device.macAddress →
      device₀.keys = device.keys → ∃ keys,
        processProtection device₀ (header.bytes ++ body) header 24 body.length =
          some (some ({ device₀ with keys }, 24 + pre.length, 8 + payload.length))) :
    ∃ device', processPacket device (header.bytes ++ body) = some (device',
      [.receiveCallback (header.address3.toList ++ (header.address2.toList ++
        (ethertype.toList ++ payload)))]) := by
  have hparse := deserializeHeader_bytes h.toIsData h.address4 body
  have hdrop : (header.bytes ++ body).drop (24 + pre.length) =
      byteHeader ++ (ethertype.toList ++ (payload ++ rest)) := by
    rw [← List.drop_drop, drop_of_append rfl header.length_bytes]
    exact drop_of_append hbody rfl
  have hframe := processDataPacket_body (dataPacketAddresses_of_isToDs h) (by omega) hdrop
  obtain ⟨keys, hremoved⟩ :=
    hprotection { device with packetCount := device.packetCount + 1 } rfl rfl
  obtain ⟨association, hdup⟩ := associationIsDuplicate_of_not_retry h.notRetry device.association
    .associated
  have hmanagement : frameControlTypeData ≠ frameControlTypeManagement := by decide
  have hforDevice : dataPacketForDevice device.macAddress header = true := by
    rw [dataPacketForDevice, Bool.or_eq_true]
    exact Or.inl (macAddressEqual_iff.mpr haddress)
  refine ⟨{ device with packetCount := device.packetCount + 1, keys, association }, ?_⟩
  simp only [processPacket, hparse, hremoved, h.type, hmanagement, if_false, if_true, hforDevice,
    not_true_eq_false, hdup, hframe, Option.bind_eq_bind, Option.bind_some]

theorem length_llcSnap :
    (byteHeader ++ (ethertype.toList ++ payload)).length = 8 + payload.length := by
  rw [List.length_append, List.length_append, ethertype.length_toList, ← Nat.add_assoc]
  rfl

/-- An unprotected frame is delivered. -/
theorem receive_open (h : header.IsToDs)
    (hflag : hasFlag header.frameControl frameControlProtectedFrame = false)
    (haddress : header.address1 = device.macAddress) :
    ∃ device', processPacket device
      (header.bytes ++ (byteHeader ++ (ethertype.toList ++ payload))) = some (device',
        [.receiveCallback (header.address3.toList ++ (header.address2.toList ++
          (ethertype.toList ++ payload)))]) := by
  refine processPacket_of_data h [] [] (by rw [List.append_nil, List.nil_append]) haddress ?_
  intro device₀ _ _
  refine ⟨device₀.keys, ?_⟩
  rw [processProtection, hflag, if_neg Bool.false_ne_true, length_llcSnap]
  rfl

/-- **A frame that CCMP protects is delivered.** -/
theorem receive_ccmp (h : header.IsToDs)
    (hflag : hasFlag header.frameControl frameControlProtectedFrame = true)
    (haddress : header.address1 = device.macAddress) (hkey : key ≤ 3)
    (hr : device.keys.find? (fun m => m.index == key &&
      keyMatchesHeader device.macAddress header m) = some r)
    (hc : r.cipher = .ccmp) (hs : leValue r.rxSequence.toList < leValue sequence.toList)
    (ht : trailer.length = ccmpMicSize) :
    ∃ device', processPacket device (header.bytes ++ (ccmpHeader key sequence ++
      (byteHeader ++ (ethertype.toList ++ payload) ++ trailer))) = some (device',
        [.receiveCallback (header.address3.toList ++ (header.address2.toList ++
          (ethertype.toList ++ payload)))]) := by
  have hlength : (ccmpHeader key sequence ++
      (byteHeader ++ (ethertype.toList ++ payload) ++ trailer)).length =
        8 + (byteHeader ++ (ethertype.toList ++ payload)).length + trailer.length := by
    simp only [List.length_append, show (ccmpHeader key sequence).length = 8 from rfl]
    omega
  have hdrop := drop_of_append (rfl : header.bytes ++ (ccmpHeader key sequence ++
    (byteHeader ++ (ethertype.toList ++ payload) ++ trailer)) = _) header.length_bytes
  refine processPacket_of_data h (ccmpHeader key sequence) trailer
    (by simp only [List.append_assoc]) haddress ?_
  intro device₀ hmac hkeys
  rw [← hkeys, ← hmac] at hr
  obtain ⟨keys, hrx⟩ := processCcmpRx_body device₀ hkey hr hc hs hdrop ht
  refine ⟨keys, ?_⟩
  rw [hlength, processProtection_of_key device₀ hflag hkey hr (by rw [hc]; exact hdrop) (by omega),
    hc]
  dsimp only
  rw [hrx, length_llcSnap]
  rfl

/-- **A frame that TKIP protects is delivered.** -/
theorem receive_tkip (h : header.IsToDs)
    (hflag : hasFlag header.frameControl frameControlProtectedFrame = true)
    (haddress : header.address1 = device.macAddress) (hkey : key ≤ 3)
    (hr : device.keys.find? (fun m => m.index == key &&
      keyMatchesHeader device.macAddress header m) = some r)
    (hc : r.cipher = .tkip) (hlen : r.key.length = tkipKeySize)
    (hs : leValue r.rxSequence.toList < leValue sequence.toList) {micKey : FixedBytes 8}
    (hm : micKey.toList = slice r.key tkipRxMicKeyOffset 8) (ht : trailer.length = tkipIcvSize) :
    ∃ device', processPacket device (header.bytes ++ (tkipHeader key sequence ++
      (byteHeader ++ (ethertype.toList ++ payload) ++ ((michaelMic micKey header.address3
        header.address2 0 (byteHeader ++ (ethertype.toList ++ payload))).toList ++ trailer)))) =
      some (device', [.receiveCallback (header.address3.toList ++ (header.address2.toList ++
        (ethertype.toList ++ payload)))]) := by
  obtain ⟨mic, hmic⟩ : ∃ mic, mic = michaelMic micKey header.address3 header.address2 0
    (byteHeader ++ (ethertype.toList ++ payload)) := ⟨_, rfl⟩
  rw [← hmic]
  have hlength : (tkipHeader key sequence ++
      (byteHeader ++ (ethertype.toList ++ payload) ++ (mic.toList ++ trailer))).length =
        8 + (byteHeader ++ (ethertype.toList ++ payload)).length +
          (tkipMicSize + trailer.length) := by
    simp only [List.length_append, show (tkipHeader key sequence).length = 8 from rfl,
      show mic.toList.length = tkipMicSize from mic.length_toList]
    omega
  have hdrop := drop_of_append (rfl : header.bytes ++ (tkipHeader key sequence ++
    (byteHeader ++ (ethertype.toList ++ payload) ++ (mic.toList ++ trailer))) = _)
      header.length_bytes
  refine processPacket_of_data h (tkipHeader key sequence) (mic.toList ++ trailer)
    (by simp only [List.append_assoc]) haddress ?_
  intro device₀ hmac hkeys
  rw [← hkeys, ← hmac] at hr
  have hrest := hdrop
  rw [hmic] at hdrop
  obtain ⟨keys, hrx⟩ := processTkipRx_body device₀ h.toIsData hkey hr hc hlen hs hm
    (dataPacketAddresses_of_isToDs h) hdrop ht
  refine ⟨keys, ?_⟩
  rw [hlength, processProtection_of_key device₀ hflag hkey hr (by rw [hc]; exact hrest) (by omega),
    hc]
  dsimp only
  rw [hmic, hrx, length_llcSnap]
  rfl

end Receive

/-! ## From one device to another -/

/-- The bytes that the hardware appends to a frame. -/
def hardwareTrailerSize : Option Cipher → Nat
  | some .ccmp => ccmpMicSize
  | some .tkip => tkipIcvSize
  | _ => 0

/-- The receiver's key for what the sender sends with `k`. -/
structure Mirrors (k r : KeyMetadata) : Prop where
  cipher : r.cipher = k.cipher
  sequence : leValue r.rxSequence.toList < leValue k.txSequence.toList + 1
  length : k.cipher = .tkip → r.key.length = tkipKeySize
  mic : k.cipher = .tkip →
    slice r.key tkipRxMicKeyOffset 8 = slice k.key tkipTxMicKeyOffset 8

/-- The receiver has not seen the packet number yet. -/
theorem Mirrors.newer {k r : KeyMetadata} (hm : Mirrors k r) {header : HeaderDescription}
    {bs mic : List UInt8} {d d' : TxBufferDescriptor} {sequence : FixedBytes 6}
    {options : TransmitOptions} (hw : SentWith k header bs d sequence mic d' options) :
    leValue r.rxSequence.toList < leValue sequence.toList := by
  rw [hw.next]
  exact hm.sequence

/-- The sender is associated with the receiver, and what it protects its frames with can be used
and is known to the receiver. -/
structure Linked (sender receiver : Device) (ap : AccessPoint) : Prop where
  associated : sender.association.state = .associated
  selected : sender.association.ap = some ap
  unicast : ap.macAddress.isGroup = false
  distinct : ap.macAddress ≠ sender.macAddress
  address : receiver.macAddress = ap.macAddress
  key : ∀ k, sender.keys.find? (KeyMetadata.isPairwise keyTx ap.macAddress) = some k →
    k.Usable ∧ ∃ r, receiver.keys.find? (fun m => m.index == k.index &&
      KeyMetadata.isPairwise keyRx sender.macAddress m) = some r ∧ Mirrors k r

section Link

variable {sender receiver : Device} {ap : AccessPoint} {destination source : MacAddress}
  {sequenceControl : UInt16} {ethertype : FixedBytes 2} {payload : List UInt8}

/-- The receiver looks at the entries for the sender. -/
theorem Linked.matches_header (link : Linked sender receiver ap) :
    keyMatchesHeader receiver.macAddress
      (transmitHeader ap sender.macAddress destination sequenceControl).protect =
        KeyMetadata.isPairwise keyRx sender.macAddress := by
  rw [link.address]
  exact keyMatchesHeader_rx (fun h => link.distinct h.symm) link.unicast

/-- What the sender hands to its driver, the receiver delivers. -/
theorem receive_transmitWithKey (link : Linked sender receiver ap) {d : TxBufferDescriptor}
    (h : d.Holds (byteHeader ++ (ethertype.toList ++ payload))) (hn : 70 ≤ d.currentOffset)
    (ht : d.data + d.size + txBufferTailroom ≤ d.buffer.length) :
    ∃ sender' d' options, transmitWithKey sender
        (transmitHeader ap sender.macAddress destination sequenceControl) d =
          some (sender', .transmitted d' options) ∧
      d'.data = d.data ∧ d'.buffer.length = d.buffer.length ∧
      d'.data + d'.size ≤ d'.buffer.length ∧
      ∀ trailer, trailer.length = hardwareTrailerSize options.cipher →
        ∃ receiver', processPacket receiver (d'.content ++ trailer) = some (receiver',
          [.receiveCallback (destination.toList ++ (sender.macAddress.toList ++
            (ethertype.toList ++ payload)))]) := by
  have hmatches : keyMatchesHeader sender.macAddress
      (transmitHeader ap sender.macAddress destination sequenceControl) =
        KeyMetadata.isPairwise keyTx ap.macAddress := keyMatchesHeader_tx rfl link.unicast
  cases hfirst : sender.keys.find? (KeyMetadata.isPairwise keyTx ap.macAddress) with
  | none =>
    obtain ⟨d', hsent, hh, hb⟩ := transmitWithKey_of_none (hmatches ▸ hfirst)
      isToDs_transmitHeader.toIsData h (by omega)
    refine ⟨sender, d', _, hsent, hb.data, hb.buffer, hh.bounds, ?_⟩
    intro trailer htrailer
    rw [List.eq_nil_of_length_eq_zero htrailer, List.append_nil, hh.content]
    exact receive_open isToDs_transmitHeader hasFlag_transmitHeader_protected link.address.symm
  | some k =>
    obtain ⟨hu, r, hr, hm⟩ := link.key k hfirst
    have hr' : receiver.keys.find? (fun m =>
        m.index == k.index && keyMatchesHeader receiver.macAddress
          (transmitHeader ap sender.macAddress destination sequenceControl).protect m) =
        some r := by
      rw [link.matches_header]
      exact hr
    rcases hu.cipher with hc | ⟨hc, hlen⟩
    · obtain ⟨sequence, sender', d', options, hsent, hw⟩ := transmitWithKey_of_ccmp
        (hmatches ▸ hfirst) hu hc isToDs_protect_transmitHeader.toIsData h (by omega)
      refine ⟨sender', d', options, hsent, hw.data, hw.buffer, hw.holds.bounds, ?_⟩
      intro trailer htrailer
      rw [hw.options, hc] at htrailer
      rw [hw.holds.content, hc, cipherHeader, if_neg (by decide), List.append_nil,
        List.append_assoc, List.append_assoc (ccmpHeader k.index sequence)]
      exact receive_ccmp isToDs_protect_transmitHeader hasFlag_protect_protected
        link.address.symm hu.index hr' (hm.cipher.trans hc) (hm.newer hw) htrailer
    · have hmicKey : tkipTxMicKeyOffset + 8 ≤ k.key.length := by
        rw [hlen]
        decide
      obtain ⟨sequence, sender', d', options, hsent, hw⟩ := transmitWithKey_of_tkip
        ⟨slice k.key tkipTxMicKeyOffset 8, length_slice hmicKey⟩ (hmatches ▸ hfirst) hu hc rfl
        isToDs_protect_transmitHeader.toIsData h (by omega) ht
      refine ⟨sender', d', options, hsent, hw.data, hw.buffer, hw.holds.bounds, ?_⟩
      intro trailer htrailer
      rw [hw.options, hc] at htrailer
      rw [hw.holds.content, hc, cipherHeader, if_pos rfl, List.append_assoc,
        List.append_assoc (tkipHeader k.index sequence ++ _),
        List.append_assoc (tkipHeader k.index sequence)]
      exact receive_tkip isToDs_protect_transmitHeader hasFlag_protect_protected
        link.address.symm hu.index hr' (hm.cipher.trans hc) (hm.length hc) (hm.newer hw)
        (hm.mic hc).symm htrailer

/-- **Receiving undoes transmitting**, for open, CCMP and TKIP links. -/
theorem receive_transmit {allocate : Nat → Except Status TxBufferDescriptor}
    (hallocate : AllocatesExactly allocate) (link : Linked sender receiver ap) {frame : List UInt8}
    (hmin : ethernetHeaderSize ≤ frame.length) (hmax : frame.length ≤ ethernetMaxFrameSize)
    (hsource : slice frame 6 6 = sender.macAddress.toList) :
    ∃ d₁ d₂ sender' d₃ options, allocateTxBuffer allocate = .ok d₁ ∧
      placeFrame d₁ frame = some d₂ ∧
      transmitBuffer sender d₂ = some (sender', .transmitted d₃ options) ∧
      d₃.data = 0 ∧
      d₃.buffer.length = ethernetMaxFrameSize + txBufferHeadroom + txBufferTailroom ∧
      d₃.size ≤ d₃.buffer.length ∧
      ∀ trailer, trailer.length = hardwareTrailerSize options.cipher →
        ∃ receiver', processPacket receiver (d₃.content ++ trailer) =
          some (receiver', [.receiveCallback frame]) := by
  obtain ⟨d₁, d₂, hallocated, hplaced, hcarries, hdata, hbuffer⟩ :=
    placeFrame_allocateTxBuffer hallocate hmax
  obtain ⟨destination, source, ethertype, payload, hframe⟩ := exists_ethernetHeader hmin
  have hsource' : source = sender.macAddress := by
    rw [FixedBytes.ext_iff', ← hsource]
    exact (slice_of_drop (drop_of_append hframe destination.length_toList)
      source.length_toList).symm
  subst hsource'
  obtain ⟨d, hconvert, hh, hd, ho, htail, hb⟩ :=
    transmitConvert_spec link.associated link.selected hcarries hframe
  rw [List.append_assoc] at hh
  have hlink : Linked sender.takeSequence receiver ap :=
    ⟨link.associated, link.selected, link.unicast, link.distinct, link.address, link.key⟩
  obtain ⟨sender', d₃, options, hsent, hd₃, hb₃, hbounds, hreceive⟩ :=
    receive_transmitWithKey hlink hh ho htail
  have hzero : d₃.data = 0 := by rw [hd₃, hd, hdata, Nat.sub_self]
  refine ⟨d₁, d₂, sender', d₃, options, hallocated, hplaced,
    (transmitBuffer_of_convert hconvert).trans hsent, hzero, hb₃.trans (hb.trans hbuffer), ?_, ?_⟩
  · rw [hzero, Nat.zero_add] at hbounds
    exact hbounds
  · rw [hframe]
    exact hreceive

end Link

namespace Scenario

/-- Station 1, which is associated with access point 2, and that access point. -/
def sender : Device := station 1 associated [tkipKey keyTx 2 8 9]

def receiver : Device := station 2 .registered [tkipKey keyRx 1 9 8]

/-- An Ethernet frame of station `n` to station 5. -/
def ethernet (n : UInt8) : List UInt8 := (mac 5).toList ++ (mac n).toList ++ [0x08, 0x00, 1, 2, 3]

/-- A driver that hands out zeroed buffers. -/
def allocate (size : Nat) : Except Status TxBufferDescriptor :=
  .ok ⟨List.replicate size 0, 0, size, size⟩

theorem allocatesExactly_allocate : AllocatesExactly allocate :=
  fun _ => ⟨_, rfl, rfl, List.length_replicate, rfl, rfl⟩

theorem linked : Linked sender receiver (accessPoint 2) where
  associated := rfl
  selected := rfl
  unicast := by decide
  distinct := by decide
  address := rfl
  key := by
    intro k hk
    have hfirst : sender.keys.find? (KeyMetadata.isPairwise keyTx (mac 2)) =
        some (tkipKey keyTx 2 8 9) := by decide
    cases hfirst.symm.trans hk
    refine ⟨⟨by decide, Or.inr ⟨rfl, by decide⟩, by decide⟩, tkipKey keyRx 1 9 8, by decide,
      rfl, by decide, fun _ => by decide, fun _ => by decide⟩

end Scenario

open Scenario in
theorem receive_transmit_tkip :
    ∃ d₂ sender' d₃ options, transmitBuffer sender d₂ = some (sender', .transmitted d₃ options) ∧
      d₃.buffer.length = 1586 ∧ ∀ trailer, trailer.length = hardwareTrailerSize options.cipher →
        ∃ receiver', processPacket receiver (d₃.content ++ trailer) =
          some (receiver', [.receiveCallback (ethernet 1)]) := by
  obtain ⟨d₁, d₂, sender', d₃, options, -, -, hsent, -, hbuffer, -, hreceived⟩ :=
    receive_transmit allocatesExactly_allocate linked
      (show ethernetHeaderSize ≤ (ethernet 1).length by decide) (by decide) (by decide)
  exact ⟨d₂, sender', d₃, options, hsent, hbuffer, hreceived⟩

end U80211
