import U80211.Properties.ReceivePath
import U80211.Properties.TxBuffer

/-!
# The header codec

* `serializeHeader_of_supported`: the encoder puts `header.wire` in front
* `deserializeHeader_wire`: the decoder reads it back
* `eq_wire_of_deserializeHeader`: what the decoder accepts starts with such bytes
* `header_codec`: **the two are inverse to each other on the frames that both support**
-/

namespace U80211

open Memory TxBufferDescriptor

namespace HeaderDescription

/-- The frames that the codec is for: management, and data with the subtype data or null-data. -/
def Supported (header : HeaderDescription) : Prop :=
  frameControlGetType header.frameControl = frameControlTypeManagement ∨
    frameControlGetType header.frameControl = frameControlTypeData ∧
      (frameControlGetSubtype header.frameControl = frameControlSubtypeData ∨
        frameControlGetSubtype header.frameControl = frameControlSubtypeNullData)

/-- The fourth address is on the wire. -/
def HasAddress4 (header : HeaderDescription) : Prop :=
  frameControlGetType header.frameControl = frameControlTypeData ∧ header.isFourAddress = true

instance (header : HeaderDescription) : Decidable header.Supported :=
  inferInstanceAs (Decidable (_ ∨ _))

instance (header : HeaderDescription) : Decidable header.HasAddress4 :=
  inferInstanceAs (Decidable (_ ∧ _))

/-- The bytes of a header. -/
def wire (header : HeaderDescription) : List UInt8 :=
  if header.HasAddress4 then header.bytes ++ header.address4.toList else header.bytes

/-- What of a header is on the wire. -/
def carried (header : HeaderDescription) : HeaderDescription :=
  if header.HasAddress4 then header else { header with address4 := .zero 6 }

/-- What the decoder knows after the part that all headers have in common. -/
def common (header : HeaderDescription) : HeaderDescription :=
  { header with
    address2 := .zero 6
    address3 := .zero 6
    address4 := .zero 6
    sequenceControl := 0 }

variable {header : HeaderDescription}

theorem wire_of_four (h : header.HasAddress4) :
    header.wire = header.bytes ++ header.address4.toList := if_pos h

theorem wire_of_three (h : ¬ header.HasAddress4) : header.wire = header.bytes := if_neg h

theorem length_wire_of_four (h : header.HasAddress4) : header.wire.length = 30 := by
  rw [wire_of_four h, List.length_append, header.length_bytes, header.address4.length_toList]

theorem length_wire_of_three (h : ¬ header.HasAddress4) : header.wire.length = 24 := by
  rw [wire_of_three h, header.length_bytes]

/-- The fields on the wire determine the bytes. -/
theorem wire_carried (header : HeaderDescription) : header.carried.wire = header.wire := by
  unfold carried
  split
  · rfl
  · next h =>
    rw [wire_of_three h]
    exact wire_of_three h

@[simp] theorem carried_frameControl (header : HeaderDescription) :
    header.carried.frameControl = header.frameControl := by
  unfold carried
  split <;> rfl

theorem supported_congr {header' : HeaderDescription}
    (h : header'.frameControl = header.frameControl) : header'.Supported ↔ header.Supported := by
  unfold Supported
  rw [h]

/-- A management frame has three addresses, whatever its flags are. -/
theorem not_hasAddress4_of_management
    (h : frameControlGetType header.frameControl = frameControlTypeManagement) :
    ¬ header.HasAddress4 := by
  rintro ⟨hdata, -⟩
  rw [h] at hdata
  exact absurd hdata (by decide)

end HeaderDescription

variable {header : HeaderDescription} {d : TxBufferDescriptor} {packet rest : List UInt8}

/-! ## Writing -/

/-- The writes of a header are one write. -/
theorem write_header (header : HeaderDescription) (destination : Nat) (d : TxBufferDescriptor) :
    (serializeCommonHeader header destination d).bind (fun d =>
      (d.write (destination + 10) header.address2.toList).bind fun d =>
        (d.write (destination + 16) header.address3.toList).bind fun d =>
          d.write (destination + 22) (serializeLe16 header.sequenceControl)) =
      d.write destination header.bytes := by
  unfold HeaderDescription.bytes
  rw [← write_append, ← write_append, ← write_append, ← write_append, ← write_append]
  simp only [serializeCommonHeader, Option.bind_eq_bind, Option.bind_assoc, List.length_append,
    length_serializeLe16, FixedBytes.length_toList]

/-- **A supported header is one write of its bytes.** -/
theorem serializeHeader_of_supported (hs : header.Supported) (d : TxBufferDescriptor) :
    serializeHeader header d =
      match d.allocateSpace header.wire.length with
      | none => some (.error .notEnoughSpace)
      | some (destination, d) => (d.write destination header.wire).map .ok := by
  have hmanagement : frameControlTypeData ≠ frameControlTypeManagement := by decide
  have hcontrol : frameControlTypeData ≠ frameControlTypeControl := by decide
  rcases hs with htype | ⟨htype, hsubtype⟩
  · have h4 := HeaderDescription.not_hasAddress4_of_management htype
    rw [serializeHeader, htype, if_pos rfl, serializeManagementHeader,
      HeaderDescription.length_wire_of_three h4, HeaderDescription.wire_of_three h4]
    rcases d.allocateSpace 24 with _ | ⟨destination, d'⟩
    · rfl
    · dsimp only
      rw [← write_header]
      simp only [Option.bind_eq_bind, Option.map_eq_bind, Option.bind_assoc]
      rfl
  · have hok : ¬ (frameControlGetSubtype header.frameControl ≠ frameControlSubtypeData ∧
        frameControlGetSubtype header.frameControl ≠ frameControlSubtypeNullData) := by
      rintro ⟨hdata, hnull⟩
      exact hsubtype.elim hdata hnull
    rw [serializeHeader, htype, if_neg hmanagement, if_neg hcontrol, if_pos rfl,
      serializeDataHeader, if_neg hok]
    cases hfour : header.isFourAddress with
    | false =>
      have h4 : ¬ header.HasAddress4 := fun h => Bool.false_ne_true (hfour.symm.trans h.2)
      rw [HeaderDescription.length_wire_of_three h4, HeaderDescription.wire_of_three h4]
      simp only [Bool.false_eq_true, if_false]
      rcases d.allocateSpace 24 with _ | ⟨destination, d'⟩
      · rfl
      · dsimp only
        rw [← write_header]
        simp only [Option.bind_eq_bind, Option.map_eq_bind, Option.bind_assoc, Nat.reduceEqDiff,
          if_false, Option.bind_some]
        rfl
    | true =>
      have h4 : header.HasAddress4 := ⟨htype, hfour⟩
      rw [HeaderDescription.length_wire_of_four h4, HeaderDescription.wire_of_four h4]
      simp only [if_true]
      rcases d.allocateSpace 30 with _ | ⟨destination, d'⟩
      · rfl
      · dsimp only
        rw [← write_append, ← write_header, header.length_bytes]
        simp only [Option.bind_eq_bind, Option.map_eq_bind, Option.bind_assoc]
        rfl

theorem serializeHeader_of_not_supported (hs : ¬ header.Supported) (d : TxBufferDescriptor) :
    serializeHeader header d = some (.error .unsupported) := by
  unfold HeaderDescription.Supported at hs
  rw [not_or, not_and_or, not_or] at hs
  rw [serializeHeader, if_neg hs.1]
  split
  · rfl
  · split
    · next htype => rw [serializeDataHeader, if_pos (hs.2.resolve_left fun h => h htype)]
    · rfl

/-- **The header is put in front of what the descriptor holds.** -/
theorem serializeHeader_wire (hs : header.Supported) (h : d.Holds rest)
    (hn : header.wire.length ≤ d.currentOffset) :
    ∃ d', serializeHeader header d = some (.ok d') ∧ d'.Holds (header.wire ++ rest) ∧
      d.Behind d' header.wire.length := by
  obtain ⟨d', hw, hh, hb⟩ := h.prepend header.wire hn
  refine ⟨d', ?_, hh, hb⟩
  rw [serializeHeader_of_supported hs, allocateSpace_of_le hn]
  dsimp only
  rw [hw, Option.map_some]

/-- The encoder succeeds if it supports the frame and there is space. -/
theorem serializeHeader_ok_iff (h : d.Holds rest) :
    (∃ d', serializeHeader header d = some (.ok d')) ↔
      header.Supported ∧ header.wire.length ≤ d.currentOffset := by
  constructor
  · rintro ⟨d', he⟩
    by_cases hs : header.Supported
    · refine ⟨hs, Nat.not_lt.mp fun hlt => ?_⟩
      rw [serializeHeader_of_supported hs, TxBufferDescriptor.allocateSpace, if_pos hlt] at he
      cases he
    · rw [serializeHeader_of_not_supported hs] at he
      cases he
  · rintro ⟨hs, hn⟩
    obtain ⟨d', he, -⟩ := serializeHeader_wire hs h hn
    exact ⟨d', he⟩

/-! ## Reading -/

/-- What the decoder reads of a packet that starts with a header. -/
structure HeaderDescription.Leads (header : HeaderDescription) (packet rest : List UInt8) :
    Prop where
  frameControl : deserializeLe16 packet 0 = some header.frameControl
  durationId : deserializeLe16 packet 2 = some header.durationId
  address1 : readBytes packet 4 6 = some header.address1
  address2 : readBytes packet 10 6 = some header.address2
  address3 : readBytes packet 16 6 = some header.address3
  sequenceControl : deserializeLe16 packet 22 = some header.sequenceControl
  drop : packet.drop 24 = rest
  length : packet.length = 24 + rest.length

theorem leads_append (header : HeaderDescription) (rest : List UInt8) :
    header.Leads (header.bytes ++ rest) rest := by
  obtain ⟨packet, hpacket⟩ : ∃ packet, packet = header.bytes ++ rest := ⟨_, rfl⟩
  have hlen : packet.length = 24 + rest.length := by
    rw [hpacket, List.length_append, header.length_bytes]
  rw [← hpacket]
  rw [HeaderDescription.bytes] at hpacket
  simp only [List.append_assoc] at hpacket
  -- each field in turn
  have h₂ := drop_of_append hpacket (length_serializeLe16 _)
  have h₄ := drop_of_append h₂ (length_serializeLe16 _)
  have h₁₀ := drop_of_append h₄ header.address1.length_toList
  have h₁₆ := drop_of_append h₁₀ header.address2.length_toList
  have h₂₂ := drop_of_append h₁₆ header.address3.length_toList
  have h₂₄ := drop_of_append h₂₂ (length_serializeLe16 _)
  simp only [List.drop_drop, Nat.reduceAdd] at h₂ h₄ h₁₀ h₁₆ h₂₂ h₂₄
  exact
    { frameControl := deserializeLe16_serializeLe16 hpacket
      durationId := deserializeLe16_serializeLe16 h₂
      address1 := readBytes_of_drop (by decide) h₄
      address2 := readBytes_of_drop (by decide) h₁₀
      address3 := readBytes_of_drop (by decide) h₁₆
      sequenceControl := deserializeLe16_serializeLe16 h₂₂
      drop := h₂₄
      length := hlen }

/-- The common part is read; the rest depends on the type. -/
theorem deserializeHeader_of_leads (h : header.Leads packet rest) :
    deserializeHeader packet =
      let type := frameControlGetType header.frameControl
      if type = frameControlTypeManagement then
        deserializeManagementHeader packet 10 (14 + rest.length) header.common
      else if type = frameControlTypeControl then some (.error .unsupported)
      else if type = frameControlTypeData then
        deserializeDataHeader packet 10 (14 + rest.length) header.common
      else some (.error .unsupported) := by
  have hlen := h.length
  rw [deserializeHeader, if_neg (by omega)]
  simp only [h.frameControl, h.durationId, h.address1, Option.bind_eq_bind, Option.bind_some,
    subtractSize_of_le (show 10 ≤ packet.length by omega),
    show packet.length - 10 = 14 + rest.length by omega, HeaderDescription.common]

/-- **A header with three addresses is read back.** -/
theorem deserializeHeader_of_three (hs : header.Supported) (h4 : ¬ header.HasAddress4)
    (h : header.Leads packet rest) :
    deserializeHeader packet = some (.ok
      { header := { header with address4 := .zero 6 }
        dataStart := 24
        dataSize := rest.length }) := by
  have hmanagement : frameControlTypeData ≠ frameControlTypeManagement := by decide
  have hcontrol : frameControlTypeData ≠ frameControlTypeControl := by decide
  rw [deserializeHeader_of_leads h]
  dsimp only
  rcases hs with htype | ⟨htype, hsubtype⟩
  · rw [if_pos htype, deserializeManagementHeader, if_neg (by omega)]
    simp only [h.address2, h.address3, h.sequenceControl, Option.bind_eq_bind, Option.bind_some,
      Nat.reduceAdd, subtractSize_of_le (Nat.le_add_right 14 _), Nat.add_sub_cancel_left]
    rfl
  · have hthree : header.common.isFourAddress = false :=
      Bool.eq_false_iff.mpr fun hfour => h4 ⟨htype, hfour⟩
    rw [htype, if_neg hmanagement, if_neg hcontrol, if_pos rfl, deserializeDataHeader,
      if_neg (fun hne => hsubtype.elim hne.1 hne.2), hthree]
    simp only [Bool.false_eq_true, if_false, if_neg (show ¬ 14 + rest.length < 14 by omega),
      h.address2, h.address3, h.sequenceControl, Option.bind_eq_bind, Option.bind_some,
      Nat.reduceAdd, Nat.reduceEqDiff, subtractSize_of_le (Nat.le_add_right 14 _),
      Nat.add_sub_cancel_left]
    rfl

/-- What the decoder makes of a header with four addresses. -/
theorem deserializeHeader_of_four (hs : header.Supported) (h4 : header.HasAddress4)
    (h : header.Leads packet rest) :
    deserializeHeader packet =
      if rest.length < 6 then some (.error .notEnoughSpace)
      else (readBytes packet 24 6).map fun address4 => .ok
        { header := { header with address4 }
          dataStart := 30
          dataSize := rest.length - 6 } := by
  have hmanagement : frameControlTypeData ≠ frameControlTypeManagement := by decide
  have hcontrol : frameControlTypeData ≠ frameControlTypeControl := by decide
  obtain ⟨htype, hfour⟩ := h4
  have hfour : header.common.isFourAddress = true := hfour
  rcases hs with hm | ⟨-, hsubtype⟩
  · exact absurd (htype.symm.trans hm) hmanagement
  · rw [deserializeHeader_of_leads h]
    dsimp only
    rw [htype, if_neg hmanagement, if_neg hcontrol, if_pos rfl, deserializeDataHeader,
      if_neg (fun hne => hsubtype.elim hne.1 hne.2), hfour]
    simp only [if_true]
    by_cases hlen : rest.length < 6
    · rw [if_pos hlen, if_pos (by omega)]
    · rw [if_neg hlen, if_neg (by omega)]
      simp only [h.address2, h.address3, h.sequenceControl, Option.bind_eq_bind, Option.bind_some,
        Nat.reduceAdd, subtractSize_of_le (show 20 ≤ 14 + rest.length by omega),
        show 14 + rest.length - 20 = rest.length - 6 by omega, Option.map_eq_bind]
      rfl

theorem deserializeHeader_of_not_supported (hs : ¬ header.Supported)
    (h : header.Leads packet rest) : deserializeHeader packet = some (.error .unsupported) := by
  unfold HeaderDescription.Supported at hs
  rw [not_or, not_and_or, not_or] at hs
  rw [deserializeHeader_of_leads h]
  dsimp only
  rw [if_neg hs.1]
  split
  · rfl
  · split
    · next htype => exact if_pos (hs.2.resolve_left fun h => h htype)
    · rfl

/-- **What the encoder writes is read back**, together with what follows it. -/
theorem deserializeHeader_wire (hs : header.Supported) (rest : List UInt8) :
    deserializeHeader (header.wire ++ rest) = some (.ok
      { header := header.carried
        dataStart := header.wire.length
        dataSize := rest.length }) := by
  by_cases h4 : header.HasAddress4
  · have hleads := leads_append header (header.address4.toList ++ rest)
    have hread := readBytes_of_drop (by decide) hleads.drop
    rw [HeaderDescription.length_wire_of_four h4, HeaderDescription.wire_of_four h4,
      List.append_assoc, deserializeHeader_of_four hs h4 hleads, hread, List.length_append,
      header.address4.length_toList, if_neg (by omega), Nat.add_sub_cancel_left,
      HeaderDescription.carried, if_pos h4]
    rfl
  · rw [HeaderDescription.length_wire_of_three h4, HeaderDescription.wire_of_three h4,
      deserializeHeader_of_three hs h4 (leads_append header rest), HeaderDescription.carried,
      if_neg h4]

/-! ## What is accepted -/

theorem exists_serializeLe16 {bs : List UInt8} (h : bs.length = 2) :
    ∃ value, serializeLe16 value = bs := by
  match bs, h with
  | [a, b], _ =>
    refine ⟨UInt16.ofNat (leValue [a, b]), ?_⟩
    have ha := UInt8.toNat_lt a
    have hb := UInt8.toNat_lt b
    have hvalue : leValue [a, b] = a.toNat + 256 * b.toNat := by simp [leValue]
    have hlt : leValue [a, b] < 2 ^ 16 := by omega
    rw [serializeLe16, UInt16.toNat_ofNat_of_lt' hlt, hvalue, leBytes, leBytes, leBytes,
      Nat.add_mul_div_left _ _ (by decide), Nat.div_eq_of_lt ha, Nat.zero_add, UInt8.ofNat_toNat]
    congr 1
    rw [← UInt8.toNat_inj, UInt8.toNat_ofNat']
    omega

/-- The bytes up to an offset, as an array. -/
theorem exists_fixedBytes (bs : List UInt8) (n : Nat) (h : n ≤ bs.length) :
    ∃ b : FixedBytes n, bs = b.toList ++ bs.drop n :=
  ⟨⟨bs.take n, by rw [List.length_take]; omega⟩, (List.take_append_drop n bs).symm⟩

theorem exists_le16 (bs : List UInt8) (h : 2 ≤ bs.length) :
    ∃ value, bs = serializeLe16 value ++ bs.drop 2 := by
  have hlen : (bs.take 2).length = 2 := by
    rw [List.length_take]
    omega
  obtain ⟨value, hvalue⟩ := exists_serializeLe16 hlen
  exact ⟨value, by rw [hvalue, List.take_append_drop]⟩

/-- Every packet that is long enough starts with a header. -/
theorem exists_header (h : 24 ≤ packet.length) :
    ∃ header : HeaderDescription, packet = header.bytes ++ packet.drop 24 := by
  obtain ⟨frameControl, h₀⟩ := exists_le16 packet (by omega)
  obtain ⟨durationId, h₂⟩ := exists_le16 (packet.drop 2) (by rw [List.length_drop]; omega)
  obtain ⟨address1, h₄⟩ := exists_fixedBytes (packet.drop 4) 6
    (by rw [List.length_drop]; omega)
  obtain ⟨address2, h₁₀⟩ := exists_fixedBytes (packet.drop 10) 6
    (by rw [List.length_drop]; omega)
  obtain ⟨address3, h₁₆⟩ := exists_fixedBytes (packet.drop 16) 6
    (by rw [List.length_drop]; omega)
  obtain ⟨sequenceControl, h₂₂⟩ := exists_le16 (packet.drop 22)
    (by rw [List.length_drop]; omega)
  rw [List.drop_drop] at h₂ h₄ h₁₀ h₁₆ h₂₂
  refine ⟨⟨frameControl, durationId, address1, address2, address3, .zero 6, sequenceControl⟩, ?_⟩
  rw [HeaderDescription.bytes]
  simp only [List.append_assoc]
  rw [← h₂₂, ← h₁₆, ← h₁₀, ← h₄, ← h₂, ← h₀]

/-- **What the decoder accepts is a header in front of the data.** -/
theorem eq_wire_of_deserializeHeader {r : Deserialized}
    (h : deserializeHeader packet = some (.ok r)) :
    ∃ (header : HeaderDescription) (rest : List UInt8), header.Supported ∧
      packet = header.wire ++ rest := by
  have hwithin := deserializeHeader_within h
  have hlong : 24 ≤ packet.length := by
    rw [← hwithin.size]
    exact Nat.le_add_right_of_le hwithin.start
  obtain ⟨header, hpacket⟩ := exists_header hlong
  have hleads := leads_append header (packet.drop 24)
  rw [← hpacket] at hleads
  have hs : header.Supported := by
    by_contra hs
    rw [deserializeHeader_of_not_supported hs hleads] at h
    cases h
  by_cases h4 : header.HasAddress4
  · rw [deserializeHeader_of_four hs h4 hleads] at h
    split at h
    · cases h
    · next hlen =>
      obtain ⟨address4, h₂₄⟩ := exists_fixedBytes (packet.drop 24) 6 (Nat.not_lt.mp hlen)
      have h4' : ({ header with address4 } : HeaderDescription).HasAddress4 := h4
      refine ⟨{ header with address4 }, (packet.drop 24).drop 6, hs, ?_⟩
      rw [HeaderDescription.wire_of_four h4', List.append_assoc, ← h₂₄]
      exact hpacket
  · refine ⟨header, packet.drop 24, hs, ?_⟩
    rw [HeaderDescription.wire_of_three h4]
    exact hpacket

/-- The packet is the header on the wire, followed by the data. -/
structure Deserialized.Splits (r : Deserialized) (packet : List UInt8) : Prop where
  supported : r.header.Supported
  start : r.dataStart = r.header.wire.length
  packet : r.header.wire ++ slice packet r.dataStart r.dataSize = packet

theorem slice_wire (header : HeaderDescription) (rest : List UInt8) :
    slice (header.wire ++ rest) header.wire.length rest.length = rest := by
  rw [slice, List.drop_left, List.take_length]

/-- **The decoder loses nothing of what it accepts.** -/
theorem splits_of_deserializeHeader {r : Deserialized}
    (h : deserializeHeader packet = some (.ok r)) : r.Splits packet := by
  obtain ⟨header, rest, hs, rfl⟩ := eq_wire_of_deserializeHeader h
  rw [deserializeHeader_wire hs] at h
  cases h
  refine ⟨(HeaderDescription.supported_congr header.carried_frameControl).mpr hs, ?_, ?_⟩
  · rw [header.wire_carried]
  · rw [header.wire_carried, slice_wire]

/-! ## Both directions -/

/-- The description that comes back: every field but a fourth address that is not on the wire. -/
structure HeaderDescription.Returns (header header' : HeaderDescription) : Prop where
  frameControl : header'.frameControl = header.frameControl
  durationId : header'.durationId = header.durationId
  address1 : header'.address1 = header.address1
  address2 : header'.address2 = header.address2
  address3 : header'.address3 = header.address3
  sequenceControl : header'.sequenceControl = header.sequenceControl
  address4 : header.HasAddress4 → header'.address4 = header.address4

theorem HeaderDescription.returns_carried (header : HeaderDescription) :
    header.Returns header.carried := by
  unfold HeaderDescription.carried
  split
  · exact ⟨rfl, rfl, rfl, rfl, rfl, rfl, fun _ => rfl⟩
  · next h => exact ⟨rfl, rfl, rfl, rfl, rfl, rfl, fun h4 => absurd h4 h⟩

/-- Decoding undoes encoding. -/
theorem deserializeHeader_serializeHeader {d' : TxBufferDescriptor} {payload : List UInt8}
    (h : d.Holds payload) (he : serializeHeader header d = some (.ok d')) :
    ∃ r, deserializeHeader d'.content = some (.ok r) ∧ header.Returns r.header ∧
      slice d'.content r.dataStart r.dataSize = payload := by
  obtain ⟨hs, hn⟩ := (serializeHeader_ok_iff h).mp ⟨d', he⟩
  obtain ⟨d'', he', hholds, -⟩ := serializeHeader_wire hs h hn
  cases he.symm.trans he'
  rw [hholds.content]
  exact ⟨_, deserializeHeader_wire hs payload, header.returns_carried, slice_wire header payload⟩

/-- Encoding undoes decoding. -/
theorem serializeHeader_deserializeHeader {r : Deserialized}
    (he : deserializeHeader packet = some (.ok r))
    (h : d.Holds (slice packet r.dataStart r.dataSize)) (hn : r.dataStart ≤ d.currentOffset) :
    ∃ d', serializeHeader r.header d = some (.ok d') ∧ d'.content = packet := by
  have hsplits := splits_of_deserializeHeader he
  obtain ⟨d', he', hholds, -⟩ := serializeHeader_wire hsplits.supported h (by
    rw [← hsplits.start]
    exact hn)
  exact ⟨d', he', hholds.content.trans hsplits.packet⟩

/-- What the decoder accepts is what the encoder supports. -/
theorem supported_iff_deserializeHeader :
    header.Supported ↔ ∃ packet r, deserializeHeader packet = some (.ok r) ∧
      r.header.frameControl = header.frameControl := by
  constructor
  · intro hs
    exact ⟨_, _, deserializeHeader_wire hs [], header.carried_frameControl⟩
  · rintro ⟨packet, r, he, hfc⟩
    exact (HeaderDescription.supported_congr hfc).mp (splits_of_deserializeHeader he).supported

/-- **The header codec is a bijection on its supported frames**: what is encoded is decoded, what
is decoded is encoded to the same bytes, and with enough space both support the same frames. -/
theorem header_codec {payload : List UInt8} (h : d.Holds payload) :
    (∀ d', serializeHeader header d = some (.ok d') →
      ∃ r, deserializeHeader d'.content = some (.ok r) ∧ header.Returns r.header ∧
        slice d'.content r.dataStart r.dataSize = payload) ∧
    (∀ packet r, deserializeHeader packet = some (.ok r) →
      payload = slice packet r.dataStart r.dataSize → r.dataStart ≤ d.currentOffset →
        ∃ d', serializeHeader r.header d = some (.ok d') ∧ d'.content = packet) ∧
    (header.wire.length ≤ d.currentOffset →
      ((∃ d', serializeHeader header d = some (.ok d')) ↔
        ∃ packet r, deserializeHeader packet = some (.ok r) ∧
          r.header.frameControl = header.frameControl)) := by
  refine ⟨fun d' he => deserializeHeader_serializeHeader h he, ?_, ?_⟩
  · rintro packet r he rfl hn
    exact serializeHeader_deserializeHeader he h hn
  · intro hn
    rw [serializeHeader_ok_iff h, ← supported_iff_deserializeHeader]
    exact and_iff_left hn

namespace Scenario

def interface (n : UInt8) : MacAddress := ⟨2 :: List.replicate 4 0 ++ [n], rfl⟩

/-- The header of a beacon, or of a data frame, with both bits of the direction set. -/
def bothDirections (type : UInt16) : HeaderDescription where
  frameControl := type <<< 2 ||| frameControlToDs ||| frameControlFromDs
  durationId := 5
  address1 := interface 1
  address2 := interface 2
  address3 := interface 3
  address4 := interface 4
  sequenceControl := 0x10

/-- A descriptor with two bytes behind some space. -/
def twoBytes : TxBufferDescriptor :=
  { buffer := List.replicate 30 0 ++ [7, 8], data := 0, size := 32, currentOffset := 30 }

theorem holds_twoBytes : twoBytes.Holds [7, 8] := ⟨by decide, by decide, by decide⟩

end Scenario

open Scenario in
theorem header_codec_fourAddress :
    ∃ d' r, serializeHeader (bothDirections frameControlTypeData) twoBytes = some (.ok d') ∧
      deserializeHeader d'.content = some (.ok r) ∧
      r.header.address4 = interface 4 ∧
      slice d'.content r.dataStart r.dataSize = [7, 8] := by
  have hok : ∃ d', serializeHeader (bothDirections frameControlTypeData) twoBytes = some (.ok d') :=
    (serializeHeader_ok_iff holds_twoBytes).mpr ⟨by decide, by decide⟩
  obtain ⟨d', he⟩ := hok
  obtain ⟨r, hr, hreturns, hpayload⟩ := (header_codec holds_twoBytes).1 d' he
  exact ⟨d', r, he, hr, hreturns.address4 (by decide), hpayload⟩

open Scenario in
/-- A management frame has no fourth address on the wire: two that differ in it are encoded to the
same bytes, from which it is not read back. -/
theorem management_loses_address4 :
    ∃ d' r, (bothDirections frameControlTypeManagement).isFourAddress = true ∧
      serializeHeader (bothDirections frameControlTypeManagement) twoBytes = some (.ok d') ∧
      serializeHeader { bothDirections frameControlTypeManagement with address4 := .zero 6 }
        twoBytes = some (.ok d') ∧
      deserializeHeader d'.content = some (.ok r) ∧
      r.header.address4 ≠ (bothDirections frameControlTypeManagement).address4 :=
  ⟨_, _, by decide, rfl, rfl, rfl, by decide⟩

end U80211
