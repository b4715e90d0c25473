import U80211.Properties.Consistency
import U80211.Properties.Decoding

/-!
# What is delivered, and from whom

* `unprotected_refused_iff`: which unprotected frames are dropped although there is a key for them
* `delivered_over_association_iff`: when a packet can only be delivered over the association
* `misaddressed_ignored_iff`: which packets for other stations are without effect
* `tkip_delivered`: what is delivered of a TKIP packet is what its integrity code covers
-/

namespace U80211

open Memory Decoder

variable {device : Device} {packet : List UInt8}

/-! ## Keys and frames for the examples -/

namespace Scenario

/-- A pairwise CCMP key. -/
def ccmpKey (direction : UInt32) (peer : UInt8) : KeyMetadata where
  object := 0
  cipher := .ccmp
  index := 0
  peer := mac peer
  flags := direction ||| keyPairwise
  rxSequence := .zero 6
  txSequence := .zero 6
  key := List.replicate 16 7

/-- A pairwise TKIP key with two keys for the message integrity code. -/
def tkipKey (direction : UInt32) (peer txMic rxMic : UInt8) : KeyMetadata where
  object := 0
  cipher := .tkip
  index := 1
  peer := mac peer
  flags := direction ||| keyPairwise
  rxSequence := .zero 6
  txSequence := .zero 6
  key := List.replicate 16 7 ++ List.replicate 8 txMic ++ List.replicate 8 rxMic

/-- The header of a data frame of station 5 that access point 2 passes on to station `n`. -/
def fromAccessPoint (n : UInt8) : HeaderDescription where
  frameControl := frameControlTypeData <<< 2 ||| frameControlFromDs
  durationId := 0
  address1 := mac n
  address2 := mac 2
  address3 := mac 5
  address4 := .zero 6
  sequenceControl := 0x10

/-- An ethertype and a payload of three bytes. -/
def payload : List UInt8 := [0x08, 0x00, 1, 2, 3]

def unprotectedPacket : List UInt8 := (fromAccessPoint 1).bytes ++ (byteHeader ++ payload)

/-- A CCMP packet with the number 1 for station `n`. -/
def ccmpPacket (n : UInt8) : List UInt8 :=
  (fromAccessPoint n).protect.bytes ++ ([1, 0, 0, 0x20, 0, 0, 0, 0] ++ (byteHeader ++ payload) ++
    List.replicate 8 0)

/-- A TKIP packet with the number 1. -/
def tkipPacket : List UInt8 :=
  (fromAccessPoint 1).protect.bytes ++ ([0, 0x20, 1, 0x60, 0, 0, 0, 0] ++ (byteHeader ++ payload) ++
    (michaelMic ⟨List.replicate 8 9, rfl⟩ (mac 1) (mac 5) 0 (byteHeader ++ payload)).toList ++
    List.replicate 4 0)

/-- The Ethernet frame of these packets. -/
def delivered : List UInt8 := (mac 1).toList ++ (mac 5).toList ++ payload

end Scenario

/-! ## Unprotected frames -/

/-- There is a key for received frames with the header. -/
def ReceiveKeyApplies (device : Device) (header : HeaderDescription) : Prop :=
  header.address2 ≠ device.macAddress ∧
    ∃ k ∈ device.keys, keyMatchesHeader device.macAddress header k = true

/-- **A key makes an unprotected frame be refused exactly when** the frame would be refused without
it: that there is a key is not looked at. -/
theorem unprotected_refused_iff {r : Deserialized} (hr : deserializeHeader packet = some (.ok r))
    (ht : frameControlGetType r.header.frameControl = frameControlTypeData)
    (hflag : hasFlag r.header.frameControl frameControlProtectedFrame = false) :
    (ReceiveKeyApplies device r.header → ∀ frame, ¬ Delivers device packet frame) ↔
      ¬ ReceiveKeyApplies device r.header ∨ ¬ ForDevice device.macAddress r.header ∨
        IsDuplicate device.association r.header ∨ r.dataSize < 8 ∨
        slice packet r.dataStart 6 ≠ byteHeader := by
  by_cases happlies : ReceiveKeyApplies device r.header
  swap
  · exact ⟨fun _ => Or.inl happlies, fun _ h => absurd h happlies⟩
  obtain ⟨hframe, hheader, hstart, hsize⟩ := isDataFrame_of_deserializeHeader hr ht
  have hbody : (dataBody packet).length = r.dataSize := by
    rw [dataBody, List.length_drop, ← hstart]
    omega
  have hunprotect : unprotect device.macAddress device.keys (dataHeader packet)
      (dataBody packet) = some (dataBody packet) := by
    rw [unprotect, ← hheader, hflag]
    rfl
  simp only [delivers_iff]
  rw [← not_exists, exists_decode_iff, Convertible, hunprotect, ← hheader]
  simp only [Option.some.injEq, exists_eq_left', hbody]
  rw [dataBody, ← hstart, ← slice]
  constructor
  · intro hnot
    by_contra hall
    simp only [not_or, Decidable.not_not, Nat.not_lt] at hall
    obtain ⟨-, hfor, hdup, hlong, hbyte⟩ := hall
    exact hnot happlies ⟨⟨hframe, hfor, hlong, hbyte⟩, hdup⟩
  · rintro (hnone | hfor | hdup | hshort | hbyte) _ ⟨⟨-, hfor', hlong, hbyte'⟩, hdup'⟩
    · exact hnone happlies
    · exact hfor hfor'
    · exact hdup' hdup
    · omega
    · exact hbyte hbyte'

open Scenario in
theorem unprotected_refused_iff_other_station :
    ReceiveKeyApplies (station 1 associated [ccmpKey keyRx 2]) (fromAccessPoint 3) ∧
      ∀ frame, ¬ Delivers (station 1 associated [ccmpKey keyRx 2])
        ((fromAccessPoint 3).bytes ++ (byteHeader ++ payload)) frame := by
  have hparse : deserializeHeader ((fromAccessPoint 3).bytes ++ (byteHeader ++ payload)) =
      some (.ok ⟨fromAccessPoint 3, 24, 11⟩) := rfl
  have happlies : ReceiveKeyApplies (station 1 associated [ccmpKey keyRx 2]) (fromAccessPoint 3) :=
    ⟨by decide, _, List.mem_singleton_self _, by decide⟩
  exact ⟨happlies, (unprotected_refused_iff hparse (by decide) (by decide)).mpr
    (Or.inr (Or.inl (by decide))) happlies⟩

open Scenario in
/-- **An unprotected frame is accepted** although there is a key for it. -/
theorem unprotected_accepted :
    (∃ s, Scenario.run (join 0 2 ++ accept 1 2 0 ++ cleanup) = some s ∧
      s.association = associated) ∧
    ∃ r, deserializeHeader unprotectedPacket = some (.ok r) ∧
      frameControlGetType r.header.frameControl = frameControlTypeData ∧
      hasFlag r.header.frameControl frameControlProtectedFrame = false ∧
      ¬ (ReceiveKeyApplies (station 1 associated [ccmpKey keyRx 2]) r.header →
        ∀ frame, ¬ Delivers (station 1 associated [ccmpKey keyRx 2]) unprotectedPacket frame) := by
  refine ⟨exists_associated, ⟨fromAccessPoint 1, 24, 11⟩, rfl, by decide, by decide, ?_⟩
  intro h
  have happlies : ReceiveKeyApplies (station 1 associated [ccmpKey keyRx 2]) (fromAccessPoint 1) :=
    ⟨by decide, _, List.mem_singleton_self _, by decide⟩
  exact h happlies delivered (delivers_iff.mpr (by decide))

/-! ## The association -/

/-- The device is associated with the access point that the packet comes from. -/
def OverAssociation (device : Device) (packet : List UInt8) : Prop :=
  device.association.state = .associated ∧ ∃ ap r, device.association.ap = some ap ∧
    deserializeHeader packet = some (.ok r) ∧ r.header.address2 = ap.macAddress

/-- **A packet can only be delivered over the association exactly when** it comes over the
association, or cannot be delivered at all: the association is asked for duplicates only. -/
theorem delivered_over_association_iff (device : Device) (packet : List UInt8) :
    (∀ frame, Delivers device packet frame → OverAssociation device packet) ↔
      OverAssociation device packet ∨ ¬ Convertible device.macAddress device.keys packet := by
  simp only [delivers_iff]
  constructor
  · intro h
    by_cases hover : OverAssociation device packet
    · exact Or.inl hover
    · refine Or.inr fun hconvertible => hover ?_
      have hnot : ¬ IsDuplicate device.association (dataHeader packet) := by
        rintro ⟨hstate, hap, -⟩
        obtain ⟨ap, hap, hmac⟩ := Option.map_eq_some_iff.mp hap
        exact hover ⟨hstate, ap, _, hap, deserializeHeader_of_isDataFrame hconvertible.1,
          hmac.symm⟩
      obtain ⟨frame, hframe⟩ := exists_decode_iff.mpr ⟨hconvertible, hnot⟩
      exact h frame hframe
  · rintro (hover | hnot) frame hframe
    · exact hover
    · exact absurd (exists_decode_iff.mp ⟨frame, hframe⟩).1 hnot

open Scenario in
/-- **A device that is down delivers data.** -/
theorem delivered_without_association :
    (∃ s, Scenario.run [] = some s ∧ s.association = Association.registered) ∧
      ¬ ∀ frame, Delivers (station 1 .registered []) unprotectedPacket frame →
        OverAssociation (station 1 .registered []) unprotectedPacket := by
  refine ⟨⟨_, rfl, rfl⟩, ?_⟩
  intro h
  obtain ⟨hstate, -⟩ := h delivered (delivers_iff.mpr (by decide))
  cases hstate

/-! ## Packets for other stations -/

/-- The packet is protected and its entry accepts it. -/
def CipherAccepts (own : MacAddress) (keys : List KeyMetadata) (header : HeaderDescription)
    (body : List UInt8) : Prop :=
  hasFlag header.frameControl frameControlProtectedFrame = true ∧
    ∃ k, selectEntry own keys header body = some k ∧
      (CcmpAccepts k body ∨ TkipAccepts k header body)

/-- No handler takes a management frame for another station. -/
theorem processManagementPacket_of_misaddressed {own : MacAddress} {header : HeaderDescription}
    (h1 : header.address1 ≠ own) (hgroup : header.address1.isGroup = false) (data : List UInt8) :
    processManagementPacket own header data = some .ignore := by
  have hdevice : managementPacketForDevice own header = false := by
    rw [← Bool.not_eq_true, managementPacketForDevice_iff]
    exact fun h => h1 h.2
  have hbroadcast : managementPacketForDeviceOrBroadcast own header = false := by
    rw [← Bool.not_eq_true, managementPacketForDeviceOrBroadcast_iff]
    rintro ⟨-, h | h⟩
    · exact h1 h
    · rw [h] at hgroup
      exact absurd hgroup (by decide)
  simp [processManagementPacket, processAssociationResponse, processProbeResponse,
    processAuthPacket, processDeauthenticationPacket, processDisassociationPacket,
    processTeardownPacket, hdevice, hbroadcast]

/-- An entry that takes a packet number is not what it was. -/
theorem Exchanged.ne {keys keys' : List KeyMetadata} {k : KeyMetadata} {sequence : FixedBytes 6}
    (h : Exchanged keys keys' k { k with rxSequence := sequence })
    (hnewer : leValue k.rxSequence.toList < leValue sequence.toList) : keys' ≠ keys := by
  obtain ⟨pre, post, rfl, rfl⟩ := h
  intro he
  have hk := (List.cons.inj (List.append_cancel_left he)).1
  rw [← hk] at hnewer
  exact absurd hnewer (Nat.lt_irrefl _)

section CipherAccepts

variable {header : HeaderDescription} {data dataSize : Nat}

theorem not_cipherAccepts_of_unprotect {own : MacAddress} {keys : List KeyMetadata}
    {body : List UInt8} (h : unprotect own keys header body = none) :
    ¬ CipherAccepts own keys header body := by
  rintro ⟨hflag, k, hselect, haccepts⟩
  have hopens : ∃ number content, Opens k header body number content := by
    rcases haccepts with hccmp | htkip
    · exact ⟨_, _, .ccmp hccmp⟩
    · exact ⟨_, _, .tkip htkip⟩
  obtain ⟨number, content, ho⟩ := hopens
  cases h.symm.trans (ho.unprotect hflag hselect)

/-- **Removing a cipher header leaves a trace in the keys.** -/
theorem eq_counted_iff_not_cipherAccepts (hsize : data + dataSize = packet.length) {rx : CipherRx}
    (hprotection : processProtection device.counted packet header data dataSize = some (some rx)) :
    rx.1 = device.counted ↔
      ¬ CipherAccepts device.macAddress device.keys header (packet.drop data) := by
  cases hflag : hasFlag header.frameControl frameControlProtectedFrame with
  | false =>
    rw [processProtection, hflag] at hprotection
    cases hprotection
    constructor
    · rintro - ⟨hset, -⟩
      cases hflag.symm.trans hset
    · exact fun _ => rfl
  | true =>
    rcases processProtection_decodes device.counted hsize hflag with
      ⟨k, number, content, rx', hselect, hopens, he, ho⟩ | ⟨he, -⟩
    · cases hprotection.symm.trans he
      obtain ⟨sequence, hnumber, hexchanged⟩ := ho.keys
      have hne : rx.1.keys ≠ device.keys := hexchanged.ne (by rw [hnumber]; exact ho.newer)
      constructor
      · intro hsame
        rw [hsame] at hne
        exact absurd rfl hne
      · intro hnot
        refine absurd ⟨hflag, k, hselect, ?_⟩ hnot
        cases hopens with
        | ccmp h => exact Or.inl h
        | tkip h => exact Or.inr h
    · cases hprotection.symm.trans he

end CipherAccepts

/-- What becomes of a packet for another station. -/
theorem received_of_misaddressed (h : ∀ r, deserializeHeader packet = some (.ok r) →
      r.header.address1 ≠ device.macAddress ∧ r.header.address1.isGroup = false)
    {device' : Device} {effects : List ReceiveEffect}
    (hr : Received device packet device' effects) :
    effects = [] ∧ (device' = device.counted ↔
      ∀ r, deserializeHeader packet = some (.ok r) →
        ¬ CipherAccepts device.macAddress device.keys r.header (packet.drop r.dataStart)) := by
  have haccepted : ∀ {header : HeaderDescription} {rx : CipherRx},
      Accepted device packet header rx → (rx.1 = device.counted ↔
        ∀ r, deserializeHeader packet = some (.ok r) →
          ¬ CipherAccepts device.macAddress device.keys r.header (packet.drop r.dataStart)) := by
    intro header rx ha
    obtain ⟨r, hr, rfl, -, hprotection⟩ := ha.read
    have hsize := (deserializeHeader_within hr).size
    rw [eq_counted_iff_not_cipherAccepts hsize hprotection]
    constructor
    · intro hnot r' hr'
      cases hr.symm.trans hr'
      exact hnot
    · exact fun hnot => hnot r hr
  have haddress : ∀ {header : HeaderDescription} {rx : CipherRx},
      Accepted device packet header rx → header.address1 ≠ device.macAddress ∧
        header.address1.isGroup = false := by
    intro header rx ha
    obtain ⟨r, hr, rfl, -⟩ := ha.read
    exact h r hr
  have hfor : ∀ {header : HeaderDescription} {rx : CipherRx},
      Accepted device packet header rx →
        dataPacketForDevice rx.1.macAddress header = true → False := by
    intro header rx ha hd
    rw [ha.macAddress, dataPacketForDevice_iff] at hd
    obtain ⟨hown, hgroup⟩ := haddress ha
    rcases hd with he | he
    · exact hown he
    · cases hgroup.symm.trans he
  cases hr with
  | malformed hm =>
    refine ⟨rfl, fun _ r hr => ?_, fun _ => rfl⟩
    cases hm.symm.trans hr
  | @rejected r hr hp =>
    refine ⟨rfl, fun _ r' hr' => ?_, fun _ => rfl⟩
    cases hr.symm.trans hr'
    cases hflag : hasFlag r.header.frameControl frameControlProtectedFrame with
    | false =>
      rintro ⟨hset, -⟩
      cases hflag.symm.trans hset
    | true =>
      rcases processProtection_decodes device.counted (deserializeHeader_within hr).size
        hflag with ⟨_, _, _, _, -, -, he, -⟩ | ⟨-, hnone⟩
      · cases hp.symm.trans he
      · exact not_cipherAccepts_of_unprotect hnone
  | @management header rx plan ha _ hplan =>
    obtain ⟨hown, hgroup⟩ := haddress ha
    rw [ha.macAddress, processManagementPacket_of_misaddressed hown hgroup] at hplan
    cases hplan
    exact ⟨rfl, haccepted ha⟩
  | unhandled ha => exact ⟨rfl, haccepted ha⟩
  | misaddressed ha => exact ⟨rfl, haccepted ha⟩
  | duplicate ha _ hd => exact (hfor ha hd).elim
  | data ha _ hd => exact (hfor ha hd).elim

/-- **A packet for another station is without effect exactly when** no entry accepts its cipher
header: the packet number is taken before the receiver is looked at. -/
theorem misaddressed_ignored_iff (h : ∀ r, deserializeHeader packet = some (.ok r) →
      r.header.address1 ≠ device.macAddress ∧ r.header.address1.isGroup = false) :
    processPacket device packet = some (device.counted, []) ↔
      ∀ r, deserializeHeader packet = some (.ok r) →
        ¬ CipherAccepts device.macAddress device.keys r.header (packet.drop r.dataStart) := by
  obtain ⟨device', effects, hp, hr⟩ := processPacket_received device packet
  obtain ⟨rfl, hiff⟩ := received_of_misaddressed h hr
  rw [hp, ← hiff, Option.some.injEq, Prod.mk.injEq]
  exact and_iff_left rfl

open Scenario in
theorem misaddressed_ignored_iff_unprotected :
    processPacket (station 1 associated [ccmpKey keyRx 2])
      ((fromAccessPoint 3).bytes ++ (byteHeader ++ payload)) =
        some ((station 1 associated [ccmpKey keyRx 2]).counted, []) := by
  have hparse : deserializeHeader ((fromAccessPoint 3).bytes ++ (byteHeader ++ payload)) =
      some (.ok ⟨fromAccessPoint 3, 24, 11⟩) := rfl
  refine (misaddressed_ignored_iff ?_).mpr ?_
  · intro r hr
    cases hparse.symm.trans hr
    exact ⟨by decide, by decide⟩
  · intro r hr
    cases hparse.symm.trans hr
    rintro ⟨hflag, -⟩
    exact absurd hflag (by decide)

open Scenario in
/-- **A packet for another station takes effect**: the entry of the device takes its number. -/
theorem misaddressed_takes_effect :
    (∃ s, Scenario.run (join 0 2 ++ accept 1 2 0 ++ cleanup) = some s ∧
      s.association = associated) ∧
    (∀ r, deserializeHeader (ccmpPacket 3) = some (.ok r) →
      r.header.address1 ≠ mac 1 ∧ r.header.address1.isGroup = false) ∧
    ∃ device' effects, processPacket (station 1 associated [ccmpKey keyRx 2]) (ccmpPacket 3) =
        some (device', effects) ∧
      device'.keys.map (fun k => leValue k.rxSequence.toList) = [1] ∧
      device' ≠ (station 1 associated [ccmpKey keyRx 2]).counted := by
  refine ⟨exists_associated, ?_, ?_⟩
  · intro r hr
    have hparse : deserializeHeader (ccmpPacket 3) =
        some (.ok ⟨(fromAccessPoint 3).protect, 24, 27⟩) := rfl
    cases hparse.symm.trans hr
    exact ⟨by decide, by decide⟩
  · have hkeys : (processPacket (station 1 associated [ccmpKey keyRx 2]) (ccmpPacket 3)).map
        (fun r => r.1.keys.map fun k => leValue k.rxSequence.toList) = some [1] := by decide
    obtain ⟨⟨device', effects⟩, hp, hnumbers⟩ := Option.map_eq_some_iff.mp hkeys
    refine ⟨device', effects, hp, hnumbers, ?_⟩
    rintro rfl
    have hzero : (station 1 associated [ccmpKey keyRx 2]).counted.keys.map
        (fun k => leValue k.rxSequence.toList) = [0] := by decide
    cases hnumbers.symm.trans hzero

/-! ## Integrity -/

/-- The parts of an Ethernet frame that has been made of a data frame. -/
theorem ethernetFrame_parts {header : HeaderDescription} {content frame : List UInt8}
    (h : ethernetFrame header content = some frame) :
    addressAt frame 0 = (addresses header).1 ∧ addressAt frame 6 = (addresses header).2 ∧
      12 ≤ frame.length ∧ content = byteHeader ++ frame.drop 12 := by
  obtain ⟨⟨hlong, hbyte⟩, rfl⟩ := ethernetFrame_eq_some_iff.mp h
  generalize hd : (addresses header).1 = destination
  generalize hs : (addresses header).2 = source
  have hdst := destination.length_toList
  have hsrc := source.length_toList
  simp only [List.append_assoc]
  have hdrop₆ := drop_of_append (a := destination.toList)
    (b := source.toList ++ (slice content 6 2 ++ content.drop 8)) rfl hdst
  have hdrop₁₂ := drop_of_append hdrop₆ hsrc
  rw [List.drop_drop] at hdrop₁₂
  refine ⟨?_, ?_, ?_, ?_⟩
  · rw [FixedBytes.ext_iff', addressAt, slice_of_drop (List.drop_zero) hdst]
    exact FixedBytes.copy_of_length _ hdst
  · rw [FixedBytes.ext_iff', addressAt, slice_of_drop hdrop₆ hsrc]
    exact FixedBytes.copy_of_length _ hsrc
  · simp only [List.length_append, hdst, hsrc]
    omega
  · rw [hdrop₁₂, slice, show content.drop 8 = (content.drop 6).drop 2 by rw [List.drop_drop],
      List.take_append_drop, ← hbyte, List.take_append_drop]

/-- What is left of a body that a TKIP entry is asked about. -/
theorem unprotect_of_tkip {own : MacAddress} {keys : List KeyMetadata} {header : HeaderDescription}
    {body : List UInt8} {k : KeyMetadata}
    (hflag : hasFlag header.frameControl frameControlProtectedFrame = true)
    (hk : selectEntry own keys header body = some k) (hc : k.cipher = .tkip) :
    unprotect own keys header body =
      if TkipAccepts k header body then some (tkipContent body) else none := by
  have hccmp : ¬ CcmpAccepts k body := by
    intro hccmp
    exact absurd (hc.symm.trans hccmp.cipher) (by decide)
  rw [unprotect, if_pos hflag, hk, Option.bind_some, if_neg hccmp]

/-- **What is delivered of a TKIP packet is what its integrity code covers**: the addresses, the
ethertype and the payload of the Ethernet frame are those that the code is computed over. A packet
that is rejected changes nothing. -/
theorem tkip_delivered {r : Deserialized} {k : KeyMetadata}
    (hr : deserializeHeader packet = some (.ok r))
    (hflag : hasFlag r.header.frameControl frameControlProtectedFrame = true)
    (hk : selectEntry device.macAddress device.keys r.header (packet.drop r.dataStart) = some k)
    (hc : k.cipher = .tkip) :
    (∀ frame, Delivers device packet frame →
      frameControlGetType r.header.frameControl = frameControlTypeData ∧
      frameControlGetSubtype r.header.frameControl = frameControlSubtypeData ∧
      k.key.length = 32 ∧ 12 ≤ packet.length ∧ 12 ≤ frame.length ∧
      slice packet (packet.length - 12) 8 = (michaelMic (rxMicKey k) (addressAt frame 0)
        (addressAt frame 6) 0 (byteHeader ++ frame.drop 12)).toList) ∧
    (¬ TkipAccepts k r.header (packet.drop r.dataStart) →
      processPacket device packet = some (device.counted, [])) ∧
    ∀ own keys data sequence mic keys',
      keyValidateTkipRx own keys data sequence mic = some (false, keys') → keys' = keys := by
  refine ⟨?_, ?_, ?_⟩
  · intro frame hdelivers
    obtain ⟨⟨hframe, -, -⟩, content, hu, he⟩ := decode_eq_some_iff.mp (delivers_iff.mp hdelivers)
    cases hr.symm.trans (deserializeHeader_of_isDataFrame hframe)
    rw [dataBody, unprotect_of_tkip hflag hk hc] at hu
    split at hu
    · next haccepts =>
      cases hu
      obtain ⟨hdst, hsrc, hlong, hcontent⟩ := ethernetFrame_parts he
      have hbody := haccepts.size
      rw [List.length_drop] at hbody
      refine ⟨haccepts.type, haccepts.subtype, haccepts.key, by omega, hlong, ?_⟩
      have hmic := haccepts.mic
      rw [tkipMic, hcontent, ← hdst, ← hsrc, List.length_drop, slice_drop] at hmic
      rw [← hmic]
      exact congrArg (slice packet · 8) (by omega)
    · cases hu
  · intro hnot
    rcases processProtection_decodes device.counted (deserializeHeader_within hr).size
      hflag with ⟨k', number, content, rx, hselect, hopens, -, -⟩ | ⟨he, -⟩
    · cases hk.symm.trans hselect
      cases hopens with
      | ccmp h => exact absurd (hc.symm.trans h.cipher) (by decide)
      | tkip h => exact absurd h hnot
    · exact processPacket_of_rejected hr he
  · intro own keys data sequence mic keys' h
    rcases keyValidateTkipRx_spec own keys data sequence mic with
      ⟨_, _, -, -, -, he⟩ | ⟨he, -⟩
    · cases he.symm.trans h
    · cases he.symm.trans h
      rfl

open Scenario in
theorem tkip_delivered_packet :
    Delivers (station 1 associated [tkipKey keyRx 2 8 9]) tkipPacket delivered ∧
      slice tkipPacket (tkipPacket.length - 12) 8 =
        (michaelMic (rxMicKey (tkipKey keyRx 2 8 9)) (addressAt delivered 0)
          (addressAt delivered 6) 0 (byteHeader ++ delivered.drop 12)).toList := by
  have hparse : deserializeHeader tkipPacket =
      some (.ok ⟨(fromAccessPoint 1).protect, 24, 31⟩) := rfl
  have hentry : selectEntry (mac 1) [tkipKey keyRx 2 8 9] (fromAccessPoint 1).protect
      (tkipPacket.drop 24) = some (tkipKey keyRx 2 8 9) := by decide
  have hdelivers : Delivers (station 1 associated [tkipKey keyRx 2 8 9]) tkipPacket delivered :=
    delivers_iff.mpr (by decide +kernel)
  obtain ⟨hdelivered, -, -⟩ :=
    @tkip_delivered (station 1 associated [tkipKey keyRx 2 8 9]) _ _ _ hparse (by decide) hentry rfl
  exact ⟨hdelivers, (hdelivered delivered hdelivers).2.2.2.2.2⟩

end U80211
