import U80211.Association

/-!
# `src/packet_management.c`: received management frames

The handlers read the body of a frame with bounds checks, so `none` stands for an access
outside of it. What a handler does after its checks is a `ManagementPlan`: the sections of
`U80211/Association.lean` it goes through, in order. The receive path runs them in a row
(`U80211/Receive.lean`), the interleaved system one at a time (`U80211/System.lean`).
-/

namespace U80211

open Memory

/-! ## Information elements -/

def ieIdSsid : UInt8 := 0
def ieIdRates : UInt8 := 1
def ieIdChannel : UInt8 := 3
def ieIdRsn : UInt8 := 48
def ieIdRatesExt : UInt8 := 50

def maxSsidSize : Nat := 32

/-- What `process_information_elements` writes. `none` in `ssid`, `channel` or `rsn` stands for
a `NULL` that the caller passed; `rsn` is the offset of its body, if one was found, and its
size. -/
structure InformationElements where
  rateBitmap : FixedBytes 16
  ssid : Option (FixedBytes 33)
  channel : Option UInt8
  rsn : Option (Option Nat × Nat)

/-- `handle_rates`, which never fails in the source. -/
def handleRates (rateBitmap : FixedBytes 16) : List UInt8 → Option (FixedBytes 16)
  | [] => some rateBitmap
  | r :: rates =>
    let rate := r &&& 0x7f
    if rate = 126 ∨ rate = 127 then handleRates rateBitmap rates
    else
      match rateBitmap.orByte (rate / 8).toNat (1 <<< (rate % 8)) with
      | none => none
      | some rateBitmap => handleRates rateBitmap rates

/-- `rate_bitmap[rate / 8] & (1 << (rate % 8))` -/
def hasRate (rateBitmap : FixedBytes 16) (rate : Nat) : Bool :=
  rateBitmap.toList.getD (rate / 8) 0 &&& 1 <<< UInt8.ofNat (rate % 8) ≠ 0

/-- The `switch` over the element id. The inner `none` is `return false`. -/
def processInformationElement (out : InformationElements) (data : List UInt8) (id : UInt8)
    (offset size : Nat) : Option (Option InformationElements) :=
  if id = ieIdSsid then
    if maxSsidSize < size then some none
    else
      match out.ssid with
      | none => some (some out)
      | some ssid => do
        let body ← readBytes data offset size
        let ssid ← ssid.write 0 body.toList
        let ssid ← ssid.write size [0]
        some (some { out with ssid := some ssid })
  else if id = ieIdChannel then
    if size ≠ 1 then some none
    else
      match out.channel with
      | none => some (some out)
      | some _ => do
        let channel ← data[offset]?
        some (some { out with channel := some channel })
  else if id = ieIdRates ∧ 8 < size then some none
  else if id = ieIdRates ∨ id = ieIdRatesExt then do
    let rates ← readBytes data offset size
    let rateBitmap ← handleRates out.rateBitmap rates.toList
    some (some { out with rateBitmap })
  else if id = ieIdRsn then
    match out.rsn with
    | none => some (some out)
    | some _ => some (some { out with rsn := some (some offset, size) })
  else some (some out)

/-- The loop of `process_information_elements`, which is given one round more than it can
take. -/
def informationElementsLoop (data : List UInt8) :
    Nat → Nat → InformationElements → Option (Option InformationElements)
  | 0, _, _ => none
  | rounds + 1, offset, out =>
    if offset < data.length then do
      if (← subtractSize data.length offset) < 2 then some none
      else do
        let id ← data[offset]?
        let size ← data[offset + 1]?
        if (← subtractSize data.length (offset + 2)) < size.toNat then some none
        else
          match ← processInformationElement out data id (offset + 2) size.toNat with
          | none => some none
          | some out => informationElementsLoop data rounds (offset + 2 + size.toNat) out
    else some (some out)

/-- `process_information_elements`: the outputs when it returns true. A caller that gets false
drops what was written so far. -/
def processInformationElements (out : InformationElements) (data : List UInt8) :
    Option (Option InformationElements) :=
  informationElementsLoop data (data.length + 1) 0 out

/-! ## The handlers -/

/-- `u80211_beacon_data_t`; `rsn` is the bytes that the pointer and the size designate. -/
structure BeaconData where
  macAddress : MacAddress
  interval : UInt16
  capabilities : UInt16
  channel : UInt8
  rateBitmap : FixedBytes 16
  ssid : FixedBytes 33
  rsn : List UInt8

/-- What is left to do for a frame that a handler has checked. -/
inductive ManagementPlan where
  /-- `return` -/
  | ignore
  /-- `u80211_association_is_duplicate` in the given state, then, if the frame is not dropped,
  the processing of the message -/
  | filter (expectedState : DeviceState) (message : Message)
  /-- the processing of the message -/
  | process (message : Message)
  /-- `u80211_scan_process_response` -/
  | scanProcessResponse (beacon : BeaconData)

/-- `management_packet_for_device` -/
def managementPacketForDevice (own : MacAddress) (header : HeaderDescription) : Bool :=
  macAddressEqual header.address2 header.address3 && macAddressEqual header.address1 own

/-- `management_packet_for_device_or_broadcast` -/
def managementPacketForDeviceOrBroadcast (own : MacAddress) (header : HeaderDescription) : Bool :=
  macAddressEqual header.address2 header.address3 &&
    (macAddressEqual header.address1 own || macAddressEqual header.address1 broadcastAddress)

/-- `process_probe_response` -/
def processProbeResponse (own : MacAddress) (header : HeaderDescription) (data : List UInt8) :
    Option ManagementPlan :=
  if data.length < 12 then some .ignore
  else if ¬ managementPacketForDevice own header then some .ignore
  else do
    let interval ← deserializeLe16 data 8
    let capabilities ← deserializeLe16 data 10
    let body ← readBytes data 12 (← subtractSize data.length 12)
    let elements ← processInformationElements
      { rateBitmap := .zero 16, ssid := some (.zero 33), channel := some 0,
        rsn := some (none, 0) } body.toList
    match elements with
    | none => some .ignore
    | some elements =>
      let rsn := elements.rsn.getD (none, 0)
      some (.scanProcessResponse
        { macAddress := header.address3
          interval
          capabilities
          channel := elements.channel.getD 0
          rateBitmap := elements.rateBitmap
          ssid := elements.ssid.getD (.zero 33)
          rsn := slice body.toList (rsn.1.getD 0) rsn.2 })

/-- `process_auth_packet` -/
def processAuthPacket (own : MacAddress) (header : HeaderDescription) (data : List UInt8) :
    Option ManagementPlan :=
  if data.length < 6 then some .ignore
  else if ¬ managementPacketForDevice own header then some .ignore
  else do
    let authAlgorithm ← deserializeLe16 data 0
    let authTransaction ← deserializeLe16 data 2
    let status ← deserializeLe16 data 4
    some (.filter .authenticating
      (.authentication { address := header.address3, authAlgorithm, authTransaction, status }))

/-- `process_association_response` -/
def processAssociationResponse (own : MacAddress) (header : HeaderDescription)
    (data : List UInt8) : Option ManagementPlan :=
  if data.length < 6 then some .ignore
  else if ¬ managementPacketForDevice own header then some .ignore
  else do
    let capabilities ← deserializeLe16 data 0
    let status ← deserializeLe16 data 2
    let associationId ← deserializeLe16 data 4
    let body ← readBytes data 6 (← subtractSize data.length 6)
    let elements ← processInformationElements
      { rateBitmap := .zero 16, ssid := none, channel := none, rsn := none } body.toList
    match elements with
    | none => some .ignore
    | some elements =>
      some (.filter .associating (.response
        { address := header.address3, capabilities, status, associationId,
          rateBitmap := elements.rateBitmap }))

/-- The body that the handlers of deauthentication and disassociation frames share. -/
def processTeardownPacket (own : MacAddress) (header : HeaderDescription) (data : List UInt8)
    (message : MacAddress → UInt16 → Message) : Option ManagementPlan :=
  if data.length < 2 then some .ignore
  else if ¬ managementPacketForDeviceOrBroadcast own header then some .ignore
  else do
    let reason ← deserializeLe16 data 0
    some (.process (message header.address3 reason))

/-- `process_deauthentication_packet` -/
def processDeauthenticationPacket (own : MacAddress) (header : HeaderDescription)
    (data : List UInt8) : Option ManagementPlan :=
  processTeardownPacket own header data fun address reason => .deauthentication { address, reason }

/-- `process_disassociation_packet` -/
def processDisassociationPacket (own : MacAddress) (header : HeaderDescription)
    (data : List UInt8) : Option ManagementPlan :=
  processTeardownPacket own header data fun address reason => .disassociation { address, reason }

/-- `u80211_process_management_packet` -/
def processManagementPacket (own : MacAddress) (header : HeaderDescription) (data : List UInt8) :
    Option ManagementPlan :=
  let subtype := frameControlGetSubtype header.frameControl
  if subtype = frameControlSubtypeAssociationResponse then
    processAssociationResponse own header data
  else if subtype = frameControlSubtypeProbeResponse then processProbeResponse own header data
  else if subtype = frameControlSubtypeAuthentication then processAuthPacket own header data
  else if subtype = frameControlSubtypeDeauthentication then
    processDeauthenticationPacket own header data
  else if subtype = frameControlSubtypeDisassociation then
    processDisassociationPacket own header data
  else some .ignore

/-! ## The handlers stay inside the frame -/

theorem handleRates_isSome (rates : List UInt8) (rateBitmap : FixedBytes 16) :
    ∃ b, handleRates rateBitmap rates = some b := by
  induction rates generalizing rateBitmap with
  | nil => exact ⟨rateBitmap, rfl⟩
  | cons r rates ih =>
    rw [handleRates]
    split
    · exact ih rateBitmap
    · have hlt : ((r &&& 0x7f) / 8).toNat < 16 := by
        have hle : (r &&& 0x7f).toNat ≤ 127 := by
          rw [UInt8.toNat_and]; exact Nat.and_le_right
        rw [UInt8.toNat_div]
        simp only [UInt8.reduceToNat]
        omega
      rw [FixedBytes.orByte, if_pos hlt]
      exact ih _

/-- An element whose body lies inside the string is processed without a fault. -/
theorem processInformationElement_isSome {out : InformationElements} {data : List UInt8}
    {id : UInt8} {offset size : Nat} (h : offset + size ≤ data.length) :
    ∃ r, processInformationElement out data id offset size = some r := by
  unfold processInformationElement
  split
  · split
    · exact ⟨_, rfl⟩
    · next hsize =>
      split
      · exact ⟨_, rfl⟩
      · next ssid _ =>
        have hs : size ≤ 32 := Nat.not_lt.mp hsize
        have hb : (slice data offset size).length = size := length_slice h
        obtain ⟨s₁, h₁, -⟩ := ssid.write_of_le
          (show 0 + (slice data offset size).length ≤ 33 by omega)
        obtain ⟨s₂, h₂, -⟩ := s₁.write_of_le
          (show size + [(0 : UInt8)].length ≤ 33 by rw [List.length_singleton]; omega)
        refine ⟨some { out with ssid := some s₂ }, ?_⟩
        simp only [readBytes_of_le h, h₁, h₂, Option.bind_eq_bind, Option.bind_some]
  · split
    · split
      · exact ⟨_, rfl⟩
      · next hsize =>
        split
        · exact ⟨_, rfl⟩
        · have hlt : offset < data.length := by omega
          simp only [List.getElem?_eq_getElem hlt, Option.bind_eq_bind, Option.bind_some]
          exact ⟨_, rfl⟩
    · split
      · exact ⟨_, rfl⟩
      · split
        · obtain ⟨b, hb⟩ := handleRates_isSome (slice data offset size) out.rateBitmap
          simp only [readBytes_of_le h, hb, Option.bind_eq_bind, Option.bind_some]
          exact ⟨_, rfl⟩
        · split
          · split <;> exact ⟨_, rfl⟩
          · exact ⟨_, rfl⟩

/-- The loop stays inside the string and ends: each round moves on by at least two bytes. -/
theorem informationElementsLoop_isSome {data : List UInt8} {rounds offset : Nat}
    (out : InformationElements) (hle : offset ≤ data.length)
    (h : data.length < offset + rounds) :
    ∃ r, informationElementsLoop data rounds offset out = some r := by
  induction rounds generalizing offset out with
  | zero =>
    exfalso
    omega
  | succ rounds ih =>
    rw [informationElementsLoop]
    split
    · next hlt =>
      simp only [subtractSize_of_le (show offset ≤ data.length by omega), Option.bind_eq_bind,
        Option.bind_some]
      split
      · exact ⟨_, rfl⟩
      · next hge =>
        have h1 : offset + 1 < data.length := by omega
        simp only [List.getElem?_eq_getElem hlt, List.getElem?_eq_getElem h1,
          subtractSize_of_le (show offset + 2 ≤ data.length by omega), Option.bind_some]
        split
        · exact ⟨_, rfl⟩
        · next hsize =>
          have hin : offset + 2 + (data[offset + 1]).toNat ≤ data.length := by omega
          obtain ⟨r, hr⟩ := @processInformationElement_isSome out _ data[offset] _ _ hin
          rw [hr, Option.bind_some]
          cases r with
          | none => exact ⟨_, rfl⟩
          | some out' => exact ih out' hin (by omega)
    · exact ⟨_, rfl⟩

theorem processInformationElements_isSome (out : InformationElements) (data : List UInt8) :
    ∃ r, processInformationElements out data = some r :=
  informationElementsLoop_isSome out (Nat.zero_le _) (by omega)

theorem processProbeResponse_isSome (own : MacAddress) (header : HeaderDescription)
    (data : List UInt8) : ∃ p, processProbeResponse own header data = some p := by
  unfold processProbeResponse
  split
  · exact ⟨_, rfl⟩
  · next hlen =>
    split
    · exact ⟨_, rfl⟩
    · simp only [deserializeLe16_of_le (show 8 + 2 ≤ data.length by omega),
        deserializeLe16_of_le (show 10 + 2 ≤ data.length by omega),
        subtractSize_of_le (show 12 ≤ data.length by omega),
        readBytes_of_le (show 12 + (data.length - 12) ≤ data.length by omega),
        Option.bind_eq_bind, Option.bind_some]
      obtain ⟨r, hr⟩ := processInformationElements_isSome
        { rateBitmap := .zero 16, ssid := some (.zero 33), channel := some 0,
          rsn := some (none, 0) } (slice data 12 (data.length - 12))
      rw [hr, Option.bind_some]
      cases r <;> exact ⟨_, rfl⟩

theorem processAuthPacket_isSome (own : MacAddress) (header : HeaderDescription)
    (data : List UInt8) : ∃ p, processAuthPacket own header data = some p := by
  unfold processAuthPacket
  split
  · exact ⟨_, rfl⟩
  · next hlen =>
    split
    · exact ⟨_, rfl⟩
    · simp only [deserializeLe16_of_le (show 0 + 2 ≤ data.length by omega),
        deserializeLe16_of_le (show 2 + 2 ≤ data.length by omega),
        deserializeLe16_of_le (show 4 + 2 ≤ data.length by omega), Option.bind_eq_bind,
        Option.bind_some]
      exact ⟨_, rfl⟩

theorem processAssociationResponse_isSome (own : MacAddress) (header : HeaderDescription)
    (data : List UInt8) : ∃ p, processAssociationResponse own header data = some p := by
  unfold processAssociationResponse
  split
  · exact ⟨_, rfl⟩
  · next hlen =>
    split
    · exact ⟨_, rfl⟩
    · simp only [deserializeLe16_of_le (show 0 + 2 ≤ data.length by omega),
        deserializeLe16_of_le (show 2 + 2 ≤ data.length by omega),
        deserializeLe16_of_le (show 4 + 2 ≤ data.length by omega),
        subtractSize_of_le (show 6 ≤ data.length by omega),
        readBytes_of_le (show 6 + (data.length - 6) ≤ data.length by omega),
        Option.bind_eq_bind, Option.bind_some]
      obtain ⟨r, hr⟩ := processInformationElements_isSome
        { rateBitmap := .zero 16, ssid := none, channel := none, rsn := none }
        (slice data 6 (data.length - 6))
      rw [hr, Option.bind_some]
      cases r <;> exact ⟨_, rfl⟩

theorem processTeardownPacket_isSome (own : MacAddress) (header : HeaderDescription)
    (data : List UInt8) (message : MacAddress → UInt16 → Message) :
    ∃ p, processTeardownPacket own header data message = some p := by
  unfold processTeardownPacket
  split
  · exact ⟨_, rfl⟩
  · split
    · exact ⟨_, rfl⟩
    · rw [deserializeLe16_of_le (show 0 + 2 ≤ data.length by omega)]
      exact ⟨_, rfl⟩

/-- **No management frame makes its handler leave the frame's body.** -/
theorem processManagementPacket_isSome (own : MacAddress) (header : HeaderDescription)
    (data : List UInt8) : ∃ p, processManagementPacket own header data = some p := by
  dsimp only [processManagementPacket]
  split
  · exact processAssociationResponse_isSome own header data
  · split
    · exact processProbeResponse_isSome own header data
    · split
      · exact processAuthPacket_isSome own header data
      · split
        · exact processTeardownPacket_isSome own header data _
        · split
          · exact processTeardownPacket_isSome own header data _
          · exact ⟨_, rfl⟩

/-! ## What a frame has to pass -/

theorem managementPacketForDevice_iff {own : MacAddress} {header : HeaderDescription} :
    managementPacketForDevice own header = true ↔
      header.address2 = header.address3 ∧ header.address1 = own := by
  rw [managementPacketForDevice, Bool.and_eq_true, macAddressEqual_iff, macAddressEqual_iff]

theorem managementPacketForDeviceOrBroadcast_iff {own : MacAddress}
    {header : HeaderDescription} : managementPacketForDeviceOrBroadcast own header = true ↔
      header.address2 = header.address3 ∧
        (header.address1 = own ∨ header.address1 = broadcastAddress) := by
  rw [managementPacketForDeviceOrBroadcast, Bool.and_eq_true, Bool.or_eq_true, macAddressEqual_iff,
    macAddressEqual_iff, macAddressEqual_iff]

/-- What is known of a frame and of the plan its handler returns. -/
inductive Checked (own : MacAddress) (header : HeaderDescription) (data : List UInt8) :
    ManagementPlan → Prop
  | ignore : Checked own header data .ignore
  | authentication {d : AuthData}
      (subtype : frameControlGetSubtype header.frameControl = frameControlSubtypeAuthentication)
      (device : managementPacketForDevice own header = true) (address : d.address = header.address3)
      (algorithm : deserializeLe16 data 0 = some d.authAlgorithm)
      (transaction : deserializeLe16 data 2 = some d.authTransaction)
      (status : deserializeLe16 data 4 = some d.status) :
      Checked own header data (.filter .authenticating (.authentication d))
  | response {d : AssociationResponseData}
      (subtype : frameControlGetSubtype header.frameControl =
        frameControlSubtypeAssociationResponse)
      (device : managementPacketForDevice own header = true) (address : d.address = header.address3)
      (status : deserializeLe16 data 2 = some d.status) :
      Checked own header data (.filter .associating (.response d))
  | deauthentication {d : DeauthenticationData}
      (subtype : frameControlGetSubtype header.frameControl = frameControlSubtypeDeauthentication)
      (device : managementPacketForDeviceOrBroadcast own header = true)
      (address : d.address = header.address3) :
      Checked own header data (.process (.deauthentication d))
  | disassociation {d : DisassociationData}
      (subtype : frameControlGetSubtype header.frameControl = frameControlSubtypeDisassociation)
      (device : managementPacketForDeviceOrBroadcast own header = true)
      (address : d.address = header.address3) :
      Checked own header data (.process (.disassociation d))
  | scan {beacon : BeaconData} : Checked own header data (.scanProcessResponse beacon)

section Checked

variable {own : MacAddress} {header : HeaderDescription} {data : List UInt8}
  {plan : ManagementPlan}

/-- A probe response is used when its addresses are checked. -/
theorem processProbeResponse_checked (h : processProbeResponse own header data = some plan) :
    Checked own header data plan := by
  unfold processProbeResponse at h
  split at h
  · cases h; exact .ignore
  · split at h
    · cases h; exact .ignore
    · simp only [Option.bind_eq_bind, Option.bind_eq_some_iff] at h
      obtain ⟨interval, -, capabilities, -, size, -, body, -, elements, -, h⟩ := h
      split at h
      · cases h; exact .ignore
      · cases h; exact .scan

/-- So is an authentication response. -/
theorem processAuthPacket_checked
    (hs : frameControlGetSubtype header.frameControl = frameControlSubtypeAuthentication)
    (h : processAuthPacket own header data = some plan) : Checked own header data plan := by
  unfold processAuthPacket at h
  split at h
  · cases h; exact .ignore
  · split at h
    · cases h; exact .ignore
    · next hd =>
      simp only [Option.bind_eq_bind, Option.bind_eq_some_iff] at h
      obtain ⟨algorithm, ha, transaction, ht, status, hst, h⟩ := h
      cases h
      exact .authentication hs (Decidable.not_not.mp hd) rfl ha ht hst

/-- So is an association response. -/
theorem processAssociationResponse_checked
    (hs : frameControlGetSubtype header.frameControl = frameControlSubtypeAssociationResponse)
    (h : processAssociationResponse own header data = some plan) :
    Checked own header data plan := by
  unfold processAssociationResponse at h
  split at h
  · cases h; exact .ignore
  · split at h
    · cases h; exact .ignore
    · next hd =>
      simp only [Option.bind_eq_bind, Option.bind_eq_some_iff] at h
      obtain ⟨capabilities, -, status, hst, id, -, size, -, body, -, elements, -, h⟩ := h
      split at h
      · cases h; exact .ignore
      · cases h
        exact .response hs (Decidable.not_not.mp hd) rfl hst

/-- A teardown for the device is processed, and any other packet ignored. -/
theorem processTeardownPacket_eq_some {message : MacAddress → UInt16 → Message}
    (h : processTeardownPacket own header data message = some plan) : plan = .ignore ∨
      ∃ reason, managementPacketForDeviceOrBroadcast own header = true ∧
        plan = .process (message header.address3 reason) := by
  unfold processTeardownPacket at h
  split at h
  · cases h; exact Or.inl rfl
  · split at h
    · cases h; exact Or.inl rfl
    · next hd =>
      simp only [Option.bind_eq_bind, Option.bind_eq_some_iff] at h
      obtain ⟨reason, -, h⟩ := h
      cases h
      exact Or.inr ⟨reason, Decidable.not_not.mp hd, rfl⟩

/-- **A frame that reaches a section has passed the checks of its handler.** -/
theorem processManagementPacket_checked
    (h : processManagementPacket own header data = some plan) : Checked own header data plan := by
  dsimp only [processManagementPacket] at h
  split at h
  · next hs => exact processAssociationResponse_checked hs h
  · split at h
    · exact processProbeResponse_checked h
    · split at h
      · next hs => exact processAuthPacket_checked hs h
      · split at h
        · next hs =>
          rcases processTeardownPacket_eq_some h with rfl | ⟨reason, hd, rfl⟩
          · exact .ignore
          · exact .deauthentication hs hd rfl
        · split at h
          · next hs =>
            rcases processTeardownPacket_eq_some h with rfl | ⟨reason, hd, rfl⟩
            · exact .ignore
            · exact .disassociation hs hd rfl
          · cases h; exact .ignore

end Checked

end U80211
