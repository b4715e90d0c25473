import U80211.Decoder
import U80211.Properties.Keys
import U80211.Properties.ReceivePath

/-!
# The receive path decodes

* `deserializeHeader_of_isDataFrame`, `isDataFrame_of_deserializeHeader`: the header of a data frame
* `processProtection_decodes`: the cipher header
* `processDataPacket_ethernetFrame`: the Ethernet header
* `processPacket_refines_decode`: **the receive path delivers what the decoder makes of a packet**
-/

namespace U80211

open Memory Decoder

variable {device : Device} {packet : List UInt8} {header : HeaderDescription} {keyIndex : UInt8}
  {data dataSize : Nat}

/-! ## The header -/

theorem addressAt_eq {off : Nat} (h : off + 6 ≤ packet.length) :
    addressAt packet off = ⟨slice packet off 6, length_slice h⟩ := by
  rw [FixedBytes.ext_iff']
  exact FixedBytes.copy_of_length _ (length_slice h)

theorem dataHeaderSize_le (packet : List UInt8) : 24 ≤ dataHeaderSize packet := by
  unfold dataHeaderSize
  split <;> decide

theorem deserializeDataHeader_of_size (hfc : header.frameControl = le16At packet 0)
    (hsubtype : frameControlGetSubtype (le16At packet 0) = frameControlSubtypeData ∨
      frameControlGetSubtype (le16At packet 0) = frameControlSubtypeNullData)
    (hsize : dataHeaderSize packet ≤ packet.length) :
    deserializeDataHeader packet 10 (packet.length - 10) header = some (.ok
      { header := { header with
          address2 := addressAt packet 10
          address3 := addressAt packet 16
          address4 := if Decoder.isFourAddress (le16At packet 0) then addressAt packet 24
            else header.address4
          sequenceControl := le16At packet 22 }
        dataStart := dataHeaderSize packet
        dataSize := packet.length - dataHeaderSize packet }) := by
  have hok : ¬ (frameControlGetSubtype header.frameControl ≠ frameControlSubtypeData ∧
      frameControlGetSubtype header.frameControl ≠ frameControlSubtypeNullData) := by
    rw [hfc]
    rintro ⟨hdata, hnull⟩
    exact hsubtype.elim hdata hnull
  have hfour : header.isFourAddress = Decoder.isFourAddress (le16At packet 0) := by
    rw [HeaderDescription.isFourAddress, hfc, Decoder.isFourAddress]
  rw [deserializeDataHeader, if_neg hok, hfour]
  unfold dataHeaderSize at hsize ⊢
  cases hf : Decoder.isFourAddress (le16At packet 0) with
  | false =>
    rw [hf] at hsize
    simp only [Bool.false_eq_true, if_false] at hsize ⊢
    rw [if_neg (by omega), addressAt_eq (show 10 + 6 ≤ packet.length by omega),
      addressAt_eq (show 16 + 6 ≤ packet.length by omega)]
    simp only [readBytes_of_le (show 10 + 6 ≤ packet.length by omega),
      readBytes_of_le (show 10 + 6 + 6 ≤ packet.length by omega),
      deserializeLe16_of_le (show 10 + 12 + 2 ≤ packet.length by omega),
      subtractSize_of_le (show 14 ≤ packet.length - 10 by omega), Option.bind_eq_bind,
      Option.bind_some, Nat.reduceEqDiff, if_false, Nat.sub_sub, Nat.reduceAdd]
    rfl
  | true =>
    rw [hf] at hsize
    simp only [if_true] at hsize ⊢
    rw [if_neg (by omega), addressAt_eq (show 10 + 6 ≤ packet.length by omega),
      addressAt_eq (show 16 + 6 ≤ packet.length by omega),
      addressAt_eq (show 24 + 6 ≤ packet.length by omega)]
    simp only [readBytes_of_le (show 10 + 6 ≤ packet.length by omega),
      readBytes_of_le (show 10 + 6 + 6 ≤ packet.length by omega),
      deserializeLe16_of_le (show 10 + 12 + 2 ≤ packet.length by omega),
      readBytes_of_le (show 10 + 14 + 6 ≤ packet.length by omega),
      subtractSize_of_le (show 20 ≤ packet.length - 10 by omega), Option.bind_eq_bind,
      Option.bind_some, Nat.sub_sub, Nat.reduceAdd]
    rfl

theorem deserializeDataHeader_eq_ok {r : Deserialized}
    (hfc : header.frameControl = le16At packet 0)
    (h : deserializeDataHeader packet 10 (packet.length - 10) header = some (.ok r)) :
    (frameControlGetSubtype (le16At packet 0) = frameControlSubtypeData ∨
      frameControlGetSubtype (le16At packet 0) = frameControlSubtypeNullData) ∧
      dataHeaderSize packet ≤ packet.length := by
  have hfour : header.isFourAddress = Decoder.isFourAddress (le16At packet 0) := by
    rw [HeaderDescription.isFourAddress, hfc, Decoder.isFourAddress]
  rw [deserializeDataHeader, hfour, hfc] at h
  dsimp only at h
  split at h
  · cases h
  · next hok =>
    refine ⟨?_, ?_⟩
    · rw [not_and_or, Decidable.not_not, Decidable.not_not] at hok
      exact hok
    · unfold dataHeaderSize
      cases hf : Decoder.isFourAddress (le16At packet 0) with
      | false =>
        simp only [hf, Bool.false_eq_true, if_false] at h ⊢
        split at h
        · cases h
        · omega
      | true =>
        simp only [hf, if_true] at h ⊢
        split at h
        · cases h
        · omega

/-- The part that all headers have in common, read off a packet. -/
theorem deserializeHeader_of_le (h : 10 ≤ packet.length) :
    deserializeHeader packet =
      let header : HeaderDescription :=
        { frameControl := le16At packet 0
          durationId := le16At packet 2
          address1 := addressAt packet 4
          address2 := .zero 6
          address3 := .zero 6
          address4 := .zero 6
          sequenceControl := 0 }
      let type := frameControlGetType (le16At packet 0)
      if type = frameControlTypeManagement then
        deserializeManagementHeader packet 10 (packet.length - 10) header
      else if type = frameControlTypeControl then some (.error .unsupported)
      else if type = frameControlTypeData then
        deserializeDataHeader packet 10 (packet.length - 10) header
      else some (.error .unsupported) := by
  rw [deserializeHeader, if_neg (by omega), addressAt_eq (show 4 + 6 ≤ packet.length by omega)]
  simp only [deserializeLe16_of_le (show 0 + 2 ≤ packet.length by omega),
    deserializeLe16_of_le (show 2 + 2 ≤ packet.length by omega),
    readBytes_of_le (show 4 + 6 ≤ packet.length by omega), subtractSize_of_le h,
    Option.bind_eq_bind, Option.bind_some]
  rfl

/-- **The header of a data frame is read.** -/
theorem deserializeHeader_of_isDataFrame (h : IsDataFrame packet) :
    deserializeHeader packet = some (.ok
      { header := dataHeader packet
        dataStart := dataHeaderSize packet
        dataSize := packet.length - dataHeaderSize packet }) := by
  have hmanagement : frameControlTypeData ≠ frameControlTypeManagement := by decide
  have hcontrol : frameControlTypeData ≠ frameControlTypeControl := by decide
  have hlong := Nat.le_trans (dataHeaderSize_le packet) h.size
  rw [deserializeHeader_of_le (by omega)]
  dsimp only
  rw [h.type, if_neg hmanagement, if_neg hcontrol, if_pos rfl]
  exact deserializeDataHeader_of_size rfl h.subtype h.size

theorem frameControl_of_deserializeManagementHeader {off size : Nat} {r : Deserialized}
    (h : deserializeManagementHeader packet off size header = some (.ok r)) :
    r.header.frameControl = header.frameControl ∧ r.header.address1 = header.address1 := by
  unfold deserializeManagementHeader at h
  split at h
  · cases h
  · simp only [Option.bind_eq_bind, Option.bind_eq_some_iff] at h
    obtain ⟨_, -, _, -, _, -, _, -, h⟩ := h
    cases h
    exact ⟨rfl, rfl⟩

/-- A header that is read is that of a management frame, or that of a data frame. -/
theorem deserializeHeader_eq_ok {r : Deserialized} (h : deserializeHeader packet = some (.ok r)) :
    frameControlGetType r.header.frameControl = frameControlTypeManagement ∨
      IsDataFrame packet := by
  have hlong : 10 ≤ packet.length := by
    rcases Nat.lt_or_ge packet.length 10 with hlt | hge
    · rw [deserializeHeader, if_pos hlt] at h
      cases h
    · exact hge
  rw [deserializeHeader_of_le hlong] at h
  dsimp only at h
  split at h
  · next htype =>
    rw [(frameControl_of_deserializeManagementHeader h).1]
    exact Or.inl htype
  · split at h
    · cases h
    · split at h
      · next htype =>
        obtain ⟨hsubtype, hsize⟩ := deserializeDataHeader_eq_ok rfl h
        exact Or.inr ⟨htype, hsubtype, hsize⟩
      · cases h

/-- **A header of a data frame that is read is what the decoder reads.** -/
theorem isDataFrame_of_deserializeHeader {r : Deserialized}
    (h : deserializeHeader packet = some (.ok r))
    (ht : frameControlGetType r.header.frameControl = frameControlTypeData) :
    IsDataFrame packet ∧ r.header = dataHeader packet ∧ r.dataStart = dataHeaderSize packet ∧
      r.dataStart + r.dataSize = packet.length := by
  rcases deserializeHeader_eq_ok h with hmanagement | hframe
  · rw [ht] at hmanagement
    exact absurd hmanagement (by decide)
  · rw [deserializeHeader_of_isDataFrame hframe] at h
    cases h
    exact ⟨hframe, rfl, rfl, Nat.add_sub_of_le hframe.size⟩

/-! ## The cipher header -/

theorem getD_slice {mem : List UInt8} {off n i : Nat} (h : i < n) :
    (slice mem off n).getD i 0 = (mem.drop off).getD i 0 := by
  rw [slice, List.getD_eq_getElem?_getD, List.getElem?_take_of_lt h, List.getD_eq_getElem?_getD]

theorem slice_drop (mem : List UInt8) (a b n : Nat) :
    slice (mem.drop a) b n = slice mem (a + b) n := by
  rw [slice, slice, List.drop_drop]

theorem length_body (h : data + dataSize = packet.length) :
    (packet.drop data).length = dataSize := by
  rw [List.length_drop, ← h, Nat.add_sub_cancel_left]

/-- The number that the code reads from a CCMP header is that of the decoder. -/
theorem leValue_ccmpSequence (h : data + 8 ≤ packet.length) :
    leValue (ccmpSequence ⟨slice packet data 8, length_slice h⟩).toList =
      ccmpNumber (packet.drop data) := by
  simp only [ccmpSequence, ccmpNumber, getD_slice (show 0 < 8 by decide),
    getD_slice (show 1 < 8 by decide), getD_slice (show 4 < 8 by decide),
    getD_slice (show 5 < 8 by decide), getD_slice (show 6 < 8 by decide),
    getD_slice (show 7 < 8 by decide)]

theorem leValue_tkipSequence (h : data + 8 ≤ packet.length) :
    leValue (tkipSequence ⟨slice packet data 8, length_slice h⟩).toList =
      tkipNumber (packet.drop data) := by
  simp only [tkipSequence, tkipNumber, getD_slice (show 0 < 8 by decide),
    getD_slice (show 2 < 8 by decide), getD_slice (show 4 < 8 by decide),
    getD_slice (show 5 < 8 by decide), getD_slice (show 6 < 8 by decide),
    getD_slice (show 7 < 8 by decide)]

/-- The cipher header has been removed: what is left, and the entry with its new number. -/
structure Opened (device : Device) (packet : List UInt8) (k : KeyMetadata) (number : Nat)
    (content : List UInt8) (rx : CipherRx) : Prop where
  content : slice packet rx.2.1 rx.2.2 = content
  newer : leValue k.rxSequence.toList < number
  keys : ∃ sequence : FixedBytes 6, leValue sequence.toList = number ∧
    Exchanged device.keys rx.1.keys k { k with rxSequence := sequence }

/-- `process_ccmp_rx` accepts what the decoder accepts. -/
theorem processCcmpRx_decodes (h : data + dataSize = packet.length) :
    (∃ k rx, device.keys.find? (fun m => m.index == keyIndex &&
        keyMatchesHeader device.macAddress header m) = some k ∧
      CcmpAccepts k (packet.drop data) ∧
      processCcmpRx device packet header keyIndex data dataSize = some (some rx) ∧
      Opened device packet k (ccmpNumber (packet.drop data)) (ccmpContent (packet.drop data)) rx) ∨
    processCcmpRx device packet header keyIndex data dataSize = some none ∧
      ∀ k, device.keys.find? (fun m => m.index == keyIndex &&
        keyMatchesHeader device.macAddress header m) = some k →
          ¬ CcmpAccepts k (packet.drop data) := by
  have hbody := length_body h
  unfold processCcmpRx ccmpHeaderSize ccmpMicSize
  split
  · next hlen =>
    refine Or.inr ⟨rfl, fun k _ hk => ?_⟩
    have := hk.size
    omega
  · next hlen =>
    have hread : data + 8 ≤ packet.length := by omega
    simp only [readBytes_of_le hread, Option.bind_eq_bind, Option.bind_some,
      subtractSize_of_le (Nat.not_lt.mp hlen), getD_slice (show 3 < 8 by decide)]
    split
    · next hext => exact Or.inr ⟨rfl, fun k _ hk => hk.extIv hext⟩
    · next hext =>
      have hnumber := leValue_ccmpSequence hread
      rcases keyUpdateRxSequence_spec device.macAddress device.keys header keyIndex .ccmp
        (ccmpSequence ⟨slice packet data 8, length_slice hread⟩) with
        ⟨k, keys', hfind, htakes, hexchanged, he⟩ | ⟨he, hnot⟩
      · rw [he]
        have hnewer := htakes.newer
        rw [hnumber] at hnewer
        refine Or.inl ⟨k, _, hfind, ⟨htakes.cipher, by omega, hext, hnewer⟩, rfl, ?_, hnewer, _,
          hnumber, hexchanged⟩
        rw [ccmpContent, hbody, slice_drop]
      · rw [he]
        refine Or.inr ⟨rfl, fun k hfind hk => hnot k hfind ⟨hk.cipher, ?_⟩⟩
        rw [hnumber]
        exact hk.newer

theorem dataPacketAddresses_eq_addresses (header : HeaderDescription) :
    dataPacketAddresses header = addresses header := by
  unfold dataPacketAddresses addresses
  cases hasFlag header.frameControl frameControlToDs <;>
    cases hasFlag header.frameControl frameControlFromDs <;> rfl

theorem rxMicKey_eq {k : KeyMetadata} {micKey : FixedBytes 8} (hkey : k.key.length = tkipKeySize)
    (h : micKey.toList = slice k.key tkipRxMicKeyOffset 8) : micKey = rxMicKey k := by
  rw [FixedBytes.ext_iff', h]
  refine (FixedBytes.copy_of_length _ (length_slice ?_)).symm
  rw [hkey]
  decide

theorem tkipContent_drop (h : data + dataSize = packet.length) :
    tkipContent (packet.drop data) = slice packet (data + 8) (dataSize - 20) := by
  rw [tkipContent, length_body h, slice_drop]

/-- **An entry takes what the code reads from a body** if it takes the body in the decoder. -/
theorem takesTkip_iff {k : KeyMetadata} (h : data + dataSize = packet.length)
    (hlen : 20 ≤ dataSize) (hread : data + 8 ≤ packet.length)
    (hmic : data + 8 + (dataSize - 20) + 8 ≤ packet.length) :
    TakesTkip k
        { header, keyIndex
          destination := (dataPacketAddresses header).1
          source := (dataPacketAddresses header).2
          priority := 0
          data := slice packet (data + 8) (dataSize - 20) }
        (tkipSequence ⟨slice packet data 8, length_slice hread⟩)
        ⟨slice packet (data + 8 + (dataSize - 20)) 8, length_slice hmic⟩ ↔
      k.cipher = .tkip ∧ k.key.length = 32 ∧
        leValue k.rxSequence.toList < tkipNumber (packet.drop data) ∧
        slice (packet.drop data) ((packet.drop data).length - 12) 8 =
          (tkipMic k header (packet.drop data)).toList := by
  have hplace : slice (packet.drop data) ((packet.drop data).length - 12) 8 =
      slice packet (data + 8 + (dataSize - 20)) 8 := by
    rw [length_body h, slice_drop,
      show data + (dataSize - 12) = data + 8 + (dataSize - 20) by omega]
  rw [hplace, tkipMic, tkipContent_drop h, ← dataPacketAddresses_eq_addresses]
  constructor
  · rintro ⟨⟨hcipher, hnewer⟩, hkey, micKey, hmicKey, hmicEq⟩
    rw [leValue_tkipSequence hread] at hnewer
    rw [rxMicKey_eq hkey hmicKey] at hmicEq
    exact ⟨hcipher, hkey, hnewer, congrArg FixedBytes.toList hmicEq⟩
  · rintro ⟨hcipher, hkey, hnewer, hmicEq⟩
    rw [← leValue_tkipSequence hread] at hnewer
    refine ⟨⟨hcipher, hnewer⟩, hkey, rxMicKey k, ?_, FixedBytes.ext_iff'.mpr hmicEq⟩
    refine FixedBytes.copy_of_length _ (length_slice ?_)
    rw [hkey]

/-- `process_tkip_rx` accepts what the decoder accepts. -/
theorem processTkipRx_decodes (h : data + dataSize = packet.length) :
    (∃ k rx, device.keys.find? (fun m => m.index == keyIndex &&
        keyMatchesHeader device.macAddress header m) = some k ∧
      TkipAccepts k header (packet.drop data) ∧
      processTkipRx device packet header keyIndex data dataSize = some (some rx) ∧
      Opened device packet k (tkipNumber (packet.drop data)) (tkipContent (packet.drop data)) rx) ∨
    processTkipRx device packet header keyIndex data dataSize = some none ∧
      ∀ k, device.keys.find? (fun m => m.index == keyIndex &&
        keyMatchesHeader device.macAddress header m) = some k →
          ¬ TkipAccepts k header (packet.drop data) := by
  have hbody := length_body h
  unfold processTkipRx tkipHeaderSize tkipMicSize tkipIcvSize
  split
  · next htype => exact Or.inr ⟨rfl, fun k _ hk => htype hk.type⟩
  · next htype =>
    split
    · next hsubtype => exact Or.inr ⟨rfl, fun k _ hk => hsubtype hk.subtype⟩
    · next hsubtype =>
      split
      · next hlen =>
        refine Or.inr ⟨rfl, fun k _ hk => ?_⟩
        have := hk.size
        omega
      · next hlen =>
        have hread : data + 8 ≤ packet.length := by omega
        have hpayload : data + 8 + (dataSize - (8 + 8 + 4)) ≤ packet.length := by omega
        have hmic : data + 8 + (dataSize - (8 + 8 + 4)) + 8 ≤ packet.length := by omega
        simp only [readBytes_of_le hread, Option.bind_eq_bind, Option.bind_some,
          subtractSize_of_le (Nat.not_lt.mp hlen), getD_slice (show 3 < 8 by decide),
          getD_slice (show 1 < 8 by decide), getD_slice (show 0 < 8 by decide),
          readBytes_of_le hpayload, readBytes_of_le hmic]
        split
        · next hext => exact Or.inr ⟨rfl, fun k _ hk => hk.extIv hext⟩
        · next hext =>
          split
          · next hseed => exact Or.inr ⟨rfl, fun k _ hk => hseed hk.seed⟩
          · next hseed =>
            have htakes (k : KeyMetadata) := @takesTkip_iff packet header keyIndex data dataSize k
              h (Nat.not_lt.mp hlen) hread hmic
            rcases keyValidateTkipRx_spec device.macAddress device.keys
              { header, keyIndex
                destination := (dataPacketAddresses header).1
                source := (dataPacketAddresses header).2
                priority := 0
                data := slice packet (data + 8) (dataSize - (8 + 8 + 4)) }
              (tkipSequence ⟨slice packet data 8, length_slice hread⟩)
              ⟨slice packet (data + 8 + (dataSize - (8 + 8 + 4))) 8, length_slice hmic⟩ with
              ⟨k, keys', hfind, hk, hexchanged, he⟩ | ⟨he, hnot⟩
            · obtain ⟨hcipher, hkey, hnewer, hmicEq⟩ := (htakes k).mp hk
              rw [he, Option.bind_some]
              exact Or.inl ⟨k, _, hfind, ⟨hcipher, Decidable.not_not.mp htype,
                Decidable.not_not.mp hsubtype, by omega, hext, Decidable.not_not.mp hseed, hkey,
                hnewer, hmicEq⟩, rfl, (tkipContent_drop h).symm, hnewer, _,
                leValue_tkipSequence hread, hexchanged⟩
            · rw [he, Option.bind_some]
              refine Or.inr ⟨rfl, fun k hfind hk => hnot k hfind ((htakes k).mpr ?_)⟩
              exact ⟨hk.cipher, hk.key, hk.newer, hk.mic⟩

/-- The entry accepts a body: the number that it has and what is left of it. -/
inductive Opens (k : KeyMetadata) (header : HeaderDescription) (body : List UInt8) :
    Nat → List UInt8 → Prop
  | ccmp (h : CcmpAccepts k body) : Opens k header body (ccmpNumber body) (ccmpContent body)
  | tkip (h : TkipAccepts k header body) :
      Opens k header body (tkipNumber body) (tkipContent body)

theorem Opens.unprotect {own : MacAddress} {keys : List KeyMetadata} {k : KeyMetadata}
    {body content : List UInt8} {number : Nat} (h : Opens k header body number content)
    (hflag : hasFlag header.frameControl frameControlProtectedFrame = true)
    (hselect : selectEntry own keys header body = some k) :
    Decoder.unprotect own keys header body = some content := by
  rw [Decoder.unprotect, if_pos hflag, hselect, Option.bind_some]
  cases h with
  | ccmp h => rw [if_pos h]
  | tkip h =>
    have hccmp : ¬ CcmpAccepts k body := by
      intro hc
      exact absurd (h.cipher.symm.trans hc.cipher) (by decide)
    rw [if_neg hccmp, if_pos h]

theorem unprotect_eq_none {own : MacAddress} {keys : List KeyMetadata} {body : List UInt8}
    (hflag : hasFlag header.frameControl frameControlProtectedFrame = true)
    (h : ∀ k, selectEntry own keys header body = some k →
      ¬ CcmpAccepts k body ∧ ¬ TkipAccepts k header body) :
    unprotect own keys header body = none := by
  rw [unprotect, if_pos hflag]
  cases hselect : selectEntry own keys header body with
  | none => rfl
  | some k =>
    obtain ⟨hccmp, htkip⟩ := h k hselect
    rw [Option.bind_some, if_neg hccmp, if_neg htkip]

/-- **A cipher header is removed when the decoder removes it**, and what is left is the same. -/
theorem processProtection_decodes (device : Device) (h : data + dataSize = packet.length)
    (hflag : hasFlag header.frameControl frameControlProtectedFrame = true) :
    (∃ k number content rx,
      selectEntry device.macAddress device.keys header (packet.drop data) = some k ∧
      Opens k header (packet.drop data) number content ∧
      processProtection device packet header data dataSize = some (some rx) ∧
      Opened device packet k number content rx) ∨
    processProtection device packet header data dataSize = some none ∧
      unprotect device.macAddress device.keys header (packet.drop data) = none := by
  have hbody := length_body h
  rw [processProtection, if_pos hflag, deserializeCipherKeyIndex]
  by_cases hlen : dataSize < 4
  · rw [if_pos hlen]
    refine Or.inr ⟨rfl, unprotect_eq_none hflag ?_⟩
    intro k hk
    rw [selectEntry, hbody, if_pos hlen] at hk
    cases hk
  · have hlt : data + 3 < packet.length := by omega
    have hbyte : packet[data + 3] = (packet.drop data).getD 3 0 := by
      rw [List.getD_eq_getElem?_getD, List.getElem?_drop, List.getElem?_eq_getElem hlt,
        Option.getD_some]
    rw [if_neg hlen]
    simp only [List.getElem?_eq_getElem hlt, Option.bind_eq_bind, Option.bind_some, hbyte]
    have hselect : selectEntry device.macAddress device.keys header (packet.drop data) =
        device.keys.find? (fun m => m.index == (packet.drop data).getD 3 0 >>> 6 &&
          keyMatchesHeader device.macAddress header m) := by
      rw [selectEntry, hbody, if_neg hlen]
    cases hfind : device.keys.find? (fun m => m.index == (packet.drop data).getD 3 0 >>> 6 &&
        keyMatchesHeader device.macAddress header m) with
    | none =>
      refine Or.inr ⟨?_, unprotect_eq_none hflag ?_⟩
      · rw [selectCipherByIndex, findKeyByIndex, findFinIdx?_of_find?_none hfind]
        rfl
      · intro k hk
        cases hfind.symm.trans (hselect.symm.trans hk)
    | some k =>
      rw [selectCipherByIndex_of_find? hfind]
      have hunique : ∀ k', selectEntry device.macAddress device.keys header (packet.drop data) =
          some k' → k' = k := by
        intro k' hk'
        rw [hselect, hfind] at hk'
        exact (Option.some.inj hk').symm
      cases hc : k.cipher with
      | ccmp =>
        rcases processCcmpRx_decodes h with ⟨k', rx, hk', haccepts, he, ho⟩ | ⟨he, hnot⟩
        · exact Or.inl ⟨k', _, _, rx, hselect.trans hk', .ccmp haccepts, he, ho⟩
        · refine Or.inr ⟨he, unprotect_eq_none hflag ?_⟩
          intro k' hk'
          rw [hunique k' hk']
          refine ⟨hnot k hfind, fun ht => ?_⟩
          exact absurd (hc.symm.trans ht.cipher) (by decide)
      | tkip =>
        rcases processTkipRx_decodes h with ⟨k', rx, hk', haccepts, he, ho⟩ | ⟨he, hnot⟩
        · exact Or.inl ⟨k', _, _, rx, hselect.trans hk', .tkip haccepts, he, ho⟩
        · refine Or.inr ⟨he, unprotect_eq_none hflag ?_⟩
          intro k' hk'
          rw [hunique k' hk']
          refine ⟨fun ht => ?_, hnot k hfind⟩
          exact absurd (hc.symm.trans ht.cipher) (by decide)
      | wep40 =>
        refine Or.inr ⟨rfl, unprotect_eq_none hflag ?_⟩
        intro k' hk'
        rw [hunique k' hk']
        exact ⟨fun ht => absurd (hc.symm.trans ht.cipher) (by decide),
          fun ht => absurd (hc.symm.trans ht.cipher) (by decide)⟩
      | wep104 =>
        refine Or.inr ⟨rfl, unprotect_eq_none hflag ?_⟩
        intro k' hk'
        rw [hunique k' hk']
        exact ⟨fun ht => absurd (hc.symm.trans ht.cipher) (by decide),
          fun ht => absurd (hc.symm.trans ht.cipher) (by decide)⟩

/-! ## The frame -/

/-- **The Ethernet header replaces the LLC/SNAP header.** -/
theorem processDataPacket_ethernetFrame (hstart : 6 ≤ data) (h : data + dataSize ≤ packet.length) :
    processDataPacket packet header data dataSize =
      some (ethernetFrame header (slice packet data dataSize)) := by
  have hlen : (slice packet data dataSize).length = dataSize := length_slice h
  rw [processDataPacket_eq hstart h, ethernetFrame, hlen, dataPacketAddresses_eq_addresses,
    Option.some.injEq]
  by_cases hlong : 8 ≤ dataSize
  · have hstartBytes : (slice packet data dataSize).take 6 = slice packet data 6 := by
      rw [slice, slice, List.take_take, Nat.min_eq_left (by omega)]
    have hethertype : slice (slice packet data dataSize) 6 2 = slice packet (data + 6) 2 := by
      rw [slice, slice, slice, List.drop_take, List.drop_drop, List.take_take,
        Nat.min_eq_left (by omega)]
    have hpayload : (slice packet data dataSize).drop 8 =
        slice packet (data + 6 + 2) (dataSize - 8) := by
      rw [slice, slice, List.drop_take, List.drop_drop]
    rw [hstartBytes, hethertype, hpayload, show dataSize - 6 = 2 + (dataSize - 8) by omega,
      slice_append, ← List.append_assoc]
    rfl
  · rw [if_neg (fun hok => hlong hok.1), if_neg (fun hok => hlong hok.1)]

theorem dataPacketForDevice_iff {own : MacAddress} :
    dataPacketForDevice own header = true ↔ ForDevice own header := by
  rw [dataPacketForDevice, Bool.or_eq_true, macAddressEqual_iff, ForDevice]

/-- **The filter drops what the decoder calls a duplicate.** -/
theorem associationIsDuplicate_iff {a : Association} :
    (associationIsDuplicate a header .associated).1 = true ↔ IsDuplicate a header := by
  unfold associationIsDuplicate
  rw [IsDuplicate, Option.map_eq_some_iff, ← apHasAddress_iff]
  split
  · next hours =>
    obtain ⟨hstate, hap⟩ := hours
    split
    · next hdup =>
      rw [Bool.and_eq_true, Bool.and_eq_true, beq_iff_eq] at hdup
      obtain ⟨⟨hretry, hvalid⟩, hcontrol⟩ := hdup
      exact ⟨fun _ => ⟨hstate, hap, hretry, hvalid, hcontrol⟩, fun _ => rfl⟩
    · next hnot =>
      constructor
      · intro he
        cases he
      · rintro ⟨-, -, hretry, hvalid, hcontrol⟩
        refine absurd ?_ hnot
        rw [hretry, hvalid, hcontrol]
        simp
  · next hnot =>
    constructor
    · intro he
      cases he
    · rintro ⟨hstate, hap, -⟩
      exact absurd ⟨hstate, hap⟩ hnot

/-! ## Packets -/

/-- The frame that an effect delivers. -/
def ReceiveEffect.frame? : ReceiveEffect → Option (List UInt8)
  | .receiveCallback frame => some frame
  | _ => none

/-- Management frames deliver nothing. -/
theorem runPlan_frames (plan : ManagementPlan) :
    (runPlan device header plan).2.filterMap ReceiveEffect.frame? = [] := by
  have hsection : ∀ (d : Device) (r : SectionResult),
      (d.applySection r).2.filterMap ReceiveEffect.frame? = [] := by
    intro d r
    unfold Device.applySection
    cases r.completion <;> cases r.cleanupNeeded <;> rfl
  cases plan with
  | ignore => rfl
  | filter expectedState message =>
    rw [runPlan]
    split
    · rfl
    · exact hsection _ _
  | process message => exact hsection _ _
  | scanProcessResponse beacon => rfl

/-- A packet is a data frame when its header has been read as one. -/
theorem Accepted.isDataFrame {rx : CipherRx} (ha : Accepted device packet header rx)
    (ht : frameControlGetType header.frameControl = frameControlTypeData) :
    IsDataFrame packet ∧ header = dataHeader packet ∧
      unprotect device.macAddress device.keys header (dataBody packet) =
        some (slice packet rx.2.1 rx.2.2) := by
  obtain ⟨r, hr, rfl, -, hprotection⟩ := ha.read
  obtain ⟨hframe, hheader, hstart, hsize⟩ := isDataFrame_of_deserializeHeader hr ht
  refine ⟨hframe, hheader, ?_⟩
  rw [dataBody, ← hstart]
  cases hflag : hasFlag r.header.frameControl frameControlProtectedFrame with
  | false =>
    rw [processProtection, hflag] at hprotection
    cases hprotection
    rw [unprotect, hflag, slice, List.take_of_length_le]
    · rfl
    · rw [List.length_drop]
      exact Nat.le_of_eq (by dsimp only; omega)
  | true =>
    rcases processProtection_decodes device.counted hsize hflag with
      ⟨k, number, content, rx', hselect, hopens, he, ho⟩ | ⟨he, -⟩
    · rw [hprotection] at he
      cases he
      rw [ho.content]
      exact hopens.unprotect hflag hselect
    · rw [hprotection] at he
      cases he

/-- A packet that is not accepted stands for nothing. -/
theorem decode_of_rejected {r : Deserialized} (hr : deserializeHeader packet = some (.ok r))
    (hp : processProtection device.counted packet r.header r.dataStart r.dataSize = some none) :
    decode device packet = none := by
  rw [decode]
  split
  · next hok =>
    rw [deserializeHeader_of_isDataFrame hok.1] at hr
    cases hr
    have hsize := Nat.add_sub_of_le hok.1.size
    cases hflag : hasFlag (dataHeader packet).frameControl frameControlProtectedFrame with
    | false =>
      dsimp only at hp
      rw [processProtection, hflag] at hp
      cases hp
    | true =>
      rcases processProtection_decodes device.counted hsize hflag with
        ⟨k, number, content, rx', -, -, he, -⟩ | ⟨-, hnone⟩
      · rw [hp] at he
        cases he
      · have hnone' : unprotect device.macAddress device.keys (dataHeader packet)
            (dataBody packet) = none := hnone
        rw [hnone', Option.bind_none]
  · rfl

/-- A packet that is read as something else than a data frame stands for nothing. -/
theorem decode_of_type {rx : CipherRx} (ha : Accepted device packet header rx)
    (ht : frameControlGetType header.frameControl ≠ frameControlTypeData) :
    decode device packet = none := by
  rw [decode, if_neg]
  rintro ⟨hframe, -⟩
  obtain ⟨r, hr, rfl, -⟩ := ha.read
  rw [deserializeHeader_of_isDataFrame hframe] at hr
  cases hr
  exact ht hframe.type

/-- **What is delivered is what the decoder makes of the packet.** -/
theorem Received.frames {device' : Device} {effects : List ReceiveEffect}
    (h : Received device packet device' effects) :
    effects.filterMap ReceiveEffect.frame? = (decode device packet).toList := by
  cases h with
  | malformed hr =>
    rw [decode, if_neg]
    · rfl
    · rintro ⟨hframe, -⟩
      cases (deserializeHeader_of_isDataFrame hframe).symm.trans hr
  | rejected hr hp =>
    rw [decode_of_rejected hr hp]
    rfl
  | management ha ht =>
    have hne : frameControlTypeManagement ≠ frameControlTypeData := by decide
    rw [runPlan_frames, decode_of_type ha (by rw [ht]; exact hne)]
    rfl
  | unhandled ha _ ht =>
    rw [decode_of_type ha ht]
    rfl
  | misaddressed ha ht hd =>
    obtain ⟨-, rfl, -⟩ := ha.isDataFrame ht
    rw [decode, if_neg]
    · rfl
    · rintro ⟨-, hfor, -⟩
      rw [ha.macAddress] at hd
      cases (dataPacketForDevice_iff.mpr hfor).symm.trans hd
  | duplicate ha ht _ hdup =>
    obtain ⟨-, rfl, -⟩ := ha.isDataFrame ht
    rw [decode, if_neg]
    · rfl
    · rintro ⟨-, -, hnot⟩
      rw [ha.association] at hdup
      exact hnot (associationIsDuplicate_iff.mp (by rw [hdup]))
  | @data header rx association frame ha ht hd hdup hf =>
    obtain ⟨hframe, rfl, hcontent⟩ := ha.isDataFrame ht
    rw [ha.macAddress] at hd
    rw [ha.association] at hdup
    rw [processDataPacket_ethernetFrame (by have := ha.start; omega) ha.size,
      Option.some.injEq] at hf
    rw [decode, if_pos, hcontent, Option.bind_some, hf]
    · cases frame <;> rfl
    · refine ⟨hframe, dataPacketForDevice_iff.mp hd, ?_⟩
      intro hyes
      have := associationIsDuplicate_iff.mpr hyes
      rw [hdup] at this
      cases this

/-- **The receive path refines the decoder**: of a packet with any bytes it delivers the frame that
the packet stands for, if there is one, and nothing else. -/
theorem processPacket_refines_decode (device : Device) (packet : List UInt8) :
    ∃ device' effects, processPacket device packet = some (device', effects) ∧
      effects.filterMap ReceiveEffect.frame? = (decode device packet).toList := by
  obtain ⟨device', effects, hp, h⟩ := processPacket_received device packet
  exact ⟨device', effects, hp, h.frames⟩

/-- `u80211_process_packet` calls `u80211_kernel_receive_callback` with the frame. -/
def Delivers (device : Device) (packet frame : List UInt8) : Prop :=
  ∃ device' effects, processPacket device packet = some (device', effects) ∧
    .receiveCallback frame ∈ effects

theorem delivers_iff {frame : List UInt8} :
    Delivers device packet frame ↔ decode device packet = some frame := by
  obtain ⟨device', effects, hp, h⟩ := processPacket_received device packet
  have hframes := h.frames
  have hmem : ReceiveEffect.receiveCallback frame ∈ effects ↔
      frame ∈ effects.filterMap ReceiveEffect.frame? := by
    rw [List.mem_filterMap]
    constructor
    · intro hm
      exact ⟨_, hm, rfl⟩
    · rintro ⟨e, he, hf⟩
      cases e with
      | receiveCallback frame' =>
        cases hf
        exact he
      | enqueueCompletion context => cases hf
      | enqueueCleanup => cases hf
      | scanProcessResponse beacon => cases hf
  rw [hframes, Option.mem_toList] at hmem
  constructor
  · rintro ⟨_, _, he, hm⟩
    cases hp.symm.trans he
    exact hmem.mp hm
  · intro hd
    exact ⟨device', effects, hp, hmem.mpr hd⟩

/-! ## What the decoder requires -/

theorem ethernetFrame_eq_some_iff {content frame : List UInt8} :
    ethernetFrame header content = some frame ↔
      (8 ≤ content.length ∧ content.take 6 = byteHeader) ∧
        (addresses header).1.toList ++ (addresses header).2.toList ++ slice content 6 2 ++
          content.drop 8 = frame := by
  rw [ethernetFrame]
  split
  · next hok =>
    rw [Option.some.injEq]
    exact ⟨fun h => ⟨hok, h⟩, fun h => h.2⟩
  · next hnot =>
    constructor
    · intro h
      cases h
    · rintro ⟨hok, -⟩
      exact absurd hok hnot

theorem decode_eq_some_iff {frame : List UInt8} : decode device packet = some frame ↔
    (IsDataFrame packet ∧ ForDevice device.macAddress (dataHeader packet) ∧
      ¬ IsDuplicate device.association (dataHeader packet)) ∧
    ∃ content, unprotect device.macAddress device.keys (dataHeader packet) (dataBody packet) =
      some content ∧ ethernetFrame (dataHeader packet) content = some frame := by
  rw [decode]
  split
  · next hok =>
    rw [Option.bind_eq_some_iff]
    exact ⟨fun h => ⟨hok, h⟩, fun h => h.2⟩
  · next hnot =>
    constructor
    · intro h
      cases h
    · rintro ⟨hok, -⟩
      exact absurd hok hnot

/-- What is left of the packet can be made an Ethernet frame. -/
def Convertible (own : MacAddress) (keys : List KeyMetadata) (packet : List UInt8) : Prop :=
  IsDataFrame packet ∧ ForDevice own (dataHeader packet) ∧
    ∃ content, unprotect own keys (dataHeader packet) (dataBody packet) = some content ∧
      8 ≤ content.length ∧ content.take 6 = byteHeader

theorem exists_decode_iff : (∃ frame, decode device packet = some frame) ↔
    Convertible device.macAddress device.keys packet ∧
      ¬ IsDuplicate device.association (dataHeader packet) := by
  simp only [decode_eq_some_iff, ethernetFrame_eq_some_iff]
  constructor
  · rintro ⟨frame, ⟨hframe, hfor, hdup⟩, content, hu, hc, -⟩
    exact ⟨⟨hframe, hfor, content, hu, hc⟩, hdup⟩
  · rintro ⟨⟨hframe, hfor, content, hu, hc⟩, hdup⟩
    exact ⟨_, ⟨hframe, hfor, hdup⟩, content, hu, hc, rfl⟩

end U80211
