import U80211.Lib.Lts
import U80211.Lib.Replay
import U80211.Properties.KeyLookups

/-!
# Two devices and a network between them

A device sends frames to the access point that it is associated with, and their hardware protects
them with a pairwise key. The network loses packets, delivers them late, out of order and more than
once, and brings unprotected packets of others.

* `Protected`: a packet as the sender makes it
* `transmit_protected`: what the sender does with a frame
* `receive_protected`: what the receiver does with such a packet
* `channel_delivers_in_order`: **of protected packets the receiver delivers the frames that were
  sent, each at most once and in order**, whatever the network does
-/

namespace U80211

open Memory Decoder

/-- A frame of the sender, and the packet that it has become. -/
structure Emission where
  frame : List UInt8
  packet : List UInt8

/-- A frame that the receiver has delivered, and whether its packet was protected. -/
structure Delivery where
  frame : List UInt8
  isProtected : Bool
deriving DecidableEq

/-- The two devices, the packets on the way and what the receiver has delivered. -/
structure Channel where
  sender : Device
  receiver : Device
  air : List Emission
  delivered : List Delivery

/-- The packet has no protected frame. -/
def isUnprotected (packet : List UInt8) : Bool :=
  match deserializeHeader packet with
  | some (.ok r) => !hasFlag r.header.frameControl frameControlProtectedFrame
  | _ => true

inductive ChannelAction where
  /-- the kernel sends a frame, and the hardware appends the trailer -/
  | send (frame trailer : List UInt8)
  /-- one of the packets on the way arrives, and stays there -/
  | arrive (i : Nat)
  /-- another packet arrives -/
  | foreign (packet : List UInt8)

namespace Channel

/-- The kernel allocates a buffer, puts the frame into it and transmits it. -/
def send (c : Channel) (allocate : Nat → Except Status TxBufferDescriptor)
    (frame trailer : List UInt8) : Option Channel :=
  match allocateTxBuffer allocate with
  | .error _ => some c
  | .ok d => do
    let d ← placeFrame d frame
    let (sender, result) ← transmitBuffer c.sender d
    match result with
    | .freed _ _ => some { c with sender }
    | .transmitted d options =>
      if trailer.length = hardwareTrailerSize options.cipher then
        some { c with sender, air := c.air ++ [⟨frame, d.content ++ trailer⟩] }
      else none

/-- The receiver gets a packet. -/
def receive (c : Channel) (packet : List UInt8) : Option Channel := do
  let (receiver, effects) ← processPacket c.receiver packet
  some { c with
    receiver
    delivered := c.delivered ++
      (effects.filterMap ReceiveEffect.frame?).map fun frame => ⟨frame, !isUnprotected packet⟩ }

/-- The frames that are sent are Ethernet frames of the sender. -/
def step (allocate : Nat → Except Status TxBufferDescriptor) (action : ChannelAction)
    (c : Channel) : Option Channel :=
  match action with
  | .send frame trailer =>
    if ethernetHeaderSize ≤ frame.length ∧ frame.length ≤ ethernetMaxFrameSize ∧
        slice frame 6 6 = c.sender.macAddress.toList then
      c.send allocate frame trailer
    else none
  | .arrive i => do
    let e ← c.air[i]?
    c.receive e.packet
  | .foreign packet => if isUnprotected packet then c.receive packet else none

abbrev Transition := Lts.Transition Channel ChannelAction

/-- The frame that is sent in a step. -/
def sent (t : Transition) : Option (List UInt8) :=
  match t.action with
  | .send frame _ => some frame
  | _ => none

/-- The packet that arrives in a step. -/
def arrival (t : Transition) : Option Nat :=
  match t.action with
  | .arrive i => some i
  | _ => none

def frames (c : Channel) : List (List UInt8) := c.air.map Emission.frame

/-- The frames that came in protected packets. -/
def protectedFrames (c : Channel) : List (List UInt8) :=
  (c.delivered.filter Delivery.isProtected).map Delivery.frame

end Channel

/-! ## Entries -/

theorem Exchanged.find? {keys keys' : List KeyMetadata} {k k' : KeyMetadata}
    (h : Exchanged keys keys' k k') (hn : (keys.map KeyMetadata.object).Nodup)
    {p : KeyMetadata → Bool} (hk : keys.find? p = some k) (hp : p k' = true) :
    keys'.find? p = some k' := by
  obtain ⟨pre, post, rfl, rfl⟩ := h
  have hpre : pre.find? p = none := by
    cases hfind : pre.find? p with
    | none => rfl
    | some m =>
      rw [List.find?_append, hfind, Option.some_or, Option.some.injEq] at hk
      subst hk
      rw [List.map_append, List.map_cons, List.nodup_middle, List.nodup_cons] at hn
      exact absurd (List.mem_append_left _
        (List.mem_map_of_mem (List.mem_of_find?_eq_some hfind))) hn.1
  rw [List.find?_append, hpre, Option.none_or, List.find?_cons_of_pos hp]

/-! ## Protected packets -/

/-- The integrity code that the library appends. -/
def integrityCode (cipher : Cipher) (micKey : FixedBytes 8) (destination source : MacAddress)
    (body : List UInt8) : List UInt8 :=
  if cipher = .tkip then (michaelMic micKey destination source 0 body).toList else []

/-- What stands behind the 802.11 header once the hardware has appended its trailer. -/
def protectedBody (cipher : Cipher) (index : UInt8) (micKey : FixedBytes 8)
    (sequence : FixedBytes 6) (destination source : MacAddress) (content trailer : List UInt8) :
    List UInt8 :=
  cipherHeader cipher index sequence ++
    (content ++ (integrityCode cipher micKey destination source content ++ trailer))

/-- A packet to the access point, as the sender makes it of a frame with a packet number. -/
structure Protected (ap : AccessPoint) (source : MacAddress) (cipher : Cipher) (index : UInt8)
    (micKey : FixedBytes 8) (number : Nat) (frame packet : List UInt8) : Prop where
  exists_parts : ∃ (destination : MacAddress) (ethertype : FixedBytes 2) (payload : List UInt8)
    (sequenceControl : UInt16) (sequence : FixedBytes 6) (trailer : List UInt8),
    frame = destination.toList ++ (source.toList ++ (ethertype.toList ++ payload)) ∧
    leValue sequence.toList = number ∧ trailer.length = hardwareTrailerSize (some cipher) ∧
    packet = (transmitHeader ap source destination sequenceControl).protect.bytes ++
      protectedBody cipher index micKey sequence destination source
        (byteHeader ++ (ethertype.toList ++ payload)) trailer

theorem Protected.not_isUnprotected {ap : AccessPoint} {source : MacAddress} {cipher : Cipher}
    {index : UInt8} {micKey : FixedBytes 8} {number : Nat} {frame packet : List UInt8}
    (h : Protected ap source cipher index micKey number frame packet) :
    isUnprotected packet = false := by
  obtain ⟨destination, ethertype, payload, sequenceControl, sequence, trailer, -, -, -, rfl⟩ :=
    h.exists_parts
  have hdata : (transmitHeader ap source destination sequenceControl).protect.IsData :=
    isToDs_protect_transmitHeader.toIsData
  rw [U80211.isUnprotected, deserializeHeader_bytes hdata rfl]
  simp only [hasFlag_protect_protected, Bool.not_true]

section Receive

variable {ap : AccessPoint} {receiver : Device} {source destination : MacAddress} {index : UInt8}
  {r : KeyMetadata} {number : Nat} {frame packet : List UInt8} {sequenceControl : UInt16}
  {sequence : FixedBytes 6}

/-- The number in a cipher header. -/
theorem number_of_opens {header : HeaderDescription} {body content : List UInt8}
    (h : Opens r header (cipherHeader r.cipher index sequence ++ body) number content) :
    number = leValue sequence.toList := by
  obtain ⟨b₀, b₁, b₂, b₃, b₄, b₅, hb⟩ := FixedBytes.eq_six sequence
  cases h with
  | ccmp h =>
    rw [h.cipher, cipherHeader, if_neg (by decide), ccmpNumber, hb]
    simp [ccmpHeader, hb]
  | tkip h =>
    rw [h.cipher, cipherHeader, if_pos rfl, tkipNumber, hb]
    simp [tkipHeader, hb]

/-- The entry that a cipher header names. -/
theorem selectEntry_cipherHeader {own : MacAddress} {keys : List KeyMetadata}
    {header : HeaderDescription} {body : List UInt8} (hindex : index ≤ 3)
    (hr : keys.find? (fun m => m.index == index && keyMatchesHeader own header m) = some r) :
    selectEntry own keys header (cipherHeader r.cipher index sequence ++ body) = some r := by
  have hlen : (cipherHeader r.cipher index sequence).length = 8 := by
    rw [cipherHeader]
    split <;> rfl
  have hbyte : (cipherHeader r.cipher index sequence ++ body).getD 3 0 = extIv ||| index <<< 6 := by
    rw [cipherHeader]
    split <;> rfl
  rw [selectEntry, hbyte, (keyId_shift hindex).1, if_neg, hr]
  rw [List.length_append, hlen]
  omega

/-- The entries of the receiver for the sender. -/
theorem find?_pairwise (haddress : receiver.macAddress = ap.macAddress)
    (hunicast : ap.macAddress.isGroup = false) (hdistinct : source ≠ ap.macAddress)
    (hr : receiver.keys.find? (fun m => m.index == index && KeyMetadata.isPairwise keyRx source m) =
      some r) (destination : MacAddress) (sequenceControl : UInt16) :
    receiver.keys.find? (fun m => m.index == index && keyMatchesHeader receiver.macAddress
      (transmitHeader ap source destination sequenceControl).protect m) = some r := by
  have hmatches : keyMatchesHeader receiver.macAddress
      (transmitHeader ap source destination sequenceControl).protect =
        KeyMetadata.isPairwise keyRx source := by
    rw [haddress]
    exact keyMatchesHeader_rx hdistinct hunicast
  rw [hmatches]
  exact hr

/-- A packet with a newer number is delivered. -/
theorem receive_newer {ethertype : FixedBytes 2} {payload trailer : List UInt8}
    (haddress : receiver.macAddress = ap.macAddress) (hindex : index ≤ 3)
    (hr : receiver.keys.find? (fun m => m.index == index && keyMatchesHeader receiver.macAddress
      (transmitHeader ap source destination sequenceControl).protect m) = some r)
    (hc : r.cipher = .ccmp ∨ r.cipher = .tkip ∧ r.key.length = tkipKeySize)
    (htrailer : trailer.length = hardwareTrailerSize (some r.cipher))
    (hpacket : packet = (transmitHeader ap source destination sequenceControl).protect.bytes ++
      protectedBody r.cipher index (rxMicKey r) sequence destination source
        (byteHeader ++ (ethertype.toList ++ payload)) trailer)
    (hs : leValue r.rxSequence.toList < leValue sequence.toList) :
    ∃ receiver', processPacket receiver packet =
      some (receiver', [.receiveCallback (destination.toList ++ (source.toList ++
        (ethertype.toList ++ payload)))]) := by
  rw [hpacket, protectedBody]
  rcases hc with hc | ⟨hc, hlen⟩
  · rw [hc] at htrailer
    rw [hc, cipherHeader, if_neg (by decide), integrityCode, if_neg (by decide), List.nil_append]
    exact receive_ccmp isToDs_protect_transmitHeader hasFlag_protect_protected haddress.symm hindex
      hr hc hs htrailer
  · rw [hc] at htrailer
    rw [hc, cipherHeader, if_pos rfl, integrityCode, if_pos rfl]
    have hmic : (rxMicKey r).toList = slice r.key tkipRxMicKeyOffset 8 := by
      refine FixedBytes.copy_of_length _ (length_slice ?_)
      rw [hlen]
      decide
    exact receive_tkip isToDs_protect_transmitHeader hasFlag_protect_protected haddress.symm hindex
      hr hc hlen hs hmic htrailer

/-- The key list after a packet that has been delivered. -/
theorem keys_of_delivered {receiver' : Device} {d : Deserialized} {rx : CipherRx}
    (hparse : deserializeHeader packet = some (.ok d))
    (htype : frameControlGetType d.header.frameControl = frameControlTypeData)
    (hrx : processProtection receiver.counted packet d.header d.dataStart d.dataSize =
      some (some rx))
    (h : processPacket receiver packet = some (receiver', [.receiveCallback frame])) :
    receiver'.macAddress = receiver.macAddress ∧ receiver'.keys = rx.1.keys := by
  obtain ⟨device', effects, hp, hreceived⟩ := processPacket_received receiver packet
  rw [hp] at h
  obtain ⟨rfl, rfl⟩ := Prod.mk.inj (Option.some.inj h)
  generalize heffects : [ReceiveEffect.receiveCallback frame] = effects at hreceived
  cases hreceived with
  | malformed => cases heffects
  | rejected => cases heffects
  | management ha ht =>
    obtain ⟨d', hparse', rfl, -, -⟩ := ha.read
    cases hparse.symm.trans hparse'
    rw [htype] at ht
    cases ht
  | unhandled => cases heffects
  | misaddressed => cases heffects
  | duplicate => cases heffects
  | data ha =>
    obtain ⟨d', hparse', rfl, -, hrx'⟩ := ha.read
    cases hparse.symm.trans hparse'
    cases hrx.symm.trans hrx'
    exact ⟨ha.macAddress, rfl⟩

/-- **What the receiver does with a packet of the sender**: when its number is newer, the frame is
delivered and the number is remembered; otherwise nothing happens. -/
theorem receive_protected (haddress : receiver.macAddress = ap.macAddress)
    (hunicast : ap.macAddress.isGroup = false) (hdistinct : source ≠ ap.macAddress)
    (hindex : index ≤ 3)
    (hr : receiver.keys.find? (fun m => m.index == index && KeyMetadata.isPairwise keyRx source m) =
      some r)
    (hc : r.cipher = .ccmp ∨ r.cipher = .tkip ∧ r.key.length = tkipKeySize)
    (hp : Protected ap source r.cipher index (rxMicKey r) number frame packet) :
    (leValue r.rxSequence.toList < number ∧ ∃ receiver' sequence,
      processPacket receiver packet = some (receiver', [.receiveCallback frame]) ∧
      receiver'.macAddress = receiver.macAddress ∧ leValue sequence.toList = number ∧
      Exchanged receiver.keys receiver'.keys r { r with rxSequence := sequence }) ∨
    number ≤ leValue r.rxSequence.toList ∧
      processPacket receiver packet = some (receiver.counted, []) := by
  obtain ⟨destination, ethertype, payload, sequenceControl, sequence, trailer, rfl, rfl, htrailer,
    hpacket⟩ := hp.exists_parts
  have hr' := find?_pairwise haddress hunicast hdistinct hr destination sequenceControl
  have hnewer := receive_newer haddress hindex hr' hc htrailer hpacket
  -- the packet is read as its parts
  have hdata : (transmitHeader ap source destination sequenceControl).protect.IsData :=
    isToDs_protect_transmitHeader.toIsData
  have hparse := deserializeHeader_bytes hdata rfl (protectedBody r.cipher index (rxMicKey r)
    sequence destination source (byteHeader ++ (ethertype.toList ++ payload)) trailer)
  rw [← hpacket] at hparse
  have hsize := congrArg List.length hpacket
  rw [List.length_append, HeaderDescription.length_bytes] at hsize
  have hdrop := drop_of_append hpacket (HeaderDescription.length_bytes _)
  rcases processProtection_decodes receiver.counted hsize.symm hasFlag_protect_protected with
    ⟨k, n, content, rx, hselect, hopens, hrx, hopened⟩ | ⟨hnone, -⟩
  · rw [hdrop, protectedBody] at hselect hopens
    cases (selectEntry_cipherHeader hindex hr').symm.trans hselect
    have hn := number_of_opens hopens
    have hlt := hopened.newer
    rw [hn] at hlt
    obtain ⟨receiver', hreceive⟩ := hnewer hlt
    obtain ⟨hmac, hkeys⟩ := keys_of_delivered hparse isToDs_protect_transmitHeader.type hrx hreceive
    obtain ⟨s, hs, hexchanged⟩ := hopened.keys
    exact Or.inl ⟨hlt, receiver', s, hreceive, hmac, hs.trans hn, hkeys ▸ hexchanged⟩
  · have hrejected := processPacket_of_rejected hparse hnone
    refine Or.inr ⟨Nat.le_of_not_lt fun hlt => ?_, hrejected⟩
    obtain ⟨receiver', hreceive⟩ := hnewer hlt
    cases hrejected.symm.trans hreceive

end Receive

/-! ## Sending -/

section Transmit

variable {device device' : Device} {header header' : HeaderDescription} {d d' : TxBufferDescriptor}
  {k : KeyMetadata} {options : TransmitOptions}

/-- The device after a frame has been protected with the entry. -/
structure Advanced (device device' : Device) (k : KeyMetadata) : Prop where
  macAddress : device'.macAddress = device.macAddress
  association : device'.association = device.association
  keys : ∃ sequence : FixedBytes 6, leValue sequence.toList = leValue k.txSequence.toList + 1 ∧
    Exchanged device.keys device'.keys k { k with txSequence := sequence }

theorem prepareCipherTx_advanced
    (hk : device.keys.find? (keyMatchesHeader device.macAddress header) = some k)
    (h : prepareCipherTx device header k.index d (some k.cipher) =
      some (.ok (device', header', d'))) : Advanced device device' k := by
  cases hc : k.cipher with
  | ccmp =>
    rw [hc, prepareCipherTx, prepareCcmpTx] at h
    split at h
    · cases h
    · split at h
      · cases h
      · next hnext =>
        obtain ⟨d₁, -, h⟩ := Option.bind_eq_some_iff.mp h
        cases h
        obtain ⟨k', hfind, -, -, hs, hexchanged⟩ := keyNextTxSequence_eq_some hnext
        obtain rfl := Option.some.inj (hk.symm.trans hfind)
        exact ⟨rfl, rfl, _, increment_eq_some hs, hexchanged⟩
  | tkip =>
    rw [hc, prepareCipherTx, prepareTkipTx] at h
    dsimp only at h
    split at h
    · cases h
    · obtain ⟨data, -, h⟩ := Option.bind_eq_some_iff.mp h
      obtain ⟨prepared, hprepared, h⟩ := Option.bind_eq_some_iff.mp h
      split at h
      · cases h
      · obtain ⟨d₁, -, h⟩ := Option.bind_eq_some_iff.mp h
        obtain ⟨d₂, -, h⟩ := Option.bind_eq_some_iff.mp h
        cases h
        obtain ⟨k', hfind, -, -, hs, hexchanged, -⟩ := keyPrepareTkipTx_eq_some hprepared
        obtain rfl := Option.some.inj ((find?_index_of_find? hk).symm.trans hfind)
        exact ⟨rfl, rfl, _, increment_eq_some hs, hexchanged⟩
  | wep40 | wep104 =>
    rw [hc] at h
    cases h

theorem transmitWithKey_advanced
    (hk : device.keys.find? (keyMatchesHeader device.macAddress header) = some k)
    (hu : k.Usable)
    (h : transmitWithKey device header d = some (device', .transmitted d' options)) :
    Advanced device device' k := by
  rw [transmitWithKey_of_first hk hu.index] at h
  obtain ⟨prepared, hprepared, h⟩ := Option.bind_eq_some_iff.mp h
  split at h
  · cases h
  · obtain ⟨serialized, -, h⟩ := Option.bind_eq_some_iff.mp h
    split at h
    · cases h
    · cases h
      exact prepareCipherTx_advanced hk hprepared

variable {sender : Device} {ap : AccessPoint} {frame : List UInt8}
  {allocate : Nat → Except Status TxBufferDescriptor}

/-- **What the sender does with a frame**: it leaves protected with the next packet number, and it
does not leave when there is none. -/
theorem transmit_protected (hallocate : AllocatesExactly allocate)
    (hs : sender.association.state = .associated) (hap : sender.association.ap = some ap)
    (hunicast : ap.macAddress.isGroup = false) (hindex : k.index ≤ 3)
    (hk : sender.keys.find? (KeyMetadata.isPairwise keyTx ap.macAddress) = some k)
    (hc : k.cipher = .ccmp ∨ k.cipher = .tkip ∧ k.key.length = tkipKeySize)
    (hmin : ethernetHeaderSize ≤ frame.length) (hmax : frame.length ≤ ethernetMaxFrameSize)
    (hsource : slice frame 6 6 = sender.macAddress.toList) :
    ∃ d₁ d₂, allocateTxBuffer allocate = .ok d₁ ∧ placeFrame d₁ frame = some d₂ ∧
      (leValue k.txSequence.toList + 1 < 256 ^ 6 → ∃ sender' d₃ options,
        transmitBuffer sender d₂ = some (sender', .transmitted d₃ options) ∧
        options.cipher = some k.cipher ∧ Advanced sender sender' k ∧
        ∀ trailer, trailer.length = hardwareTrailerSize (some k.cipher) →
          Protected ap sender.macAddress k.cipher k.index (KeyStore.txMicKey k)
            (leValue k.txSequence.toList + 1) frame (d₃.content ++ trailer)) ∧
      (¬ leValue k.txSequence.toList + 1 < 256 ^ 6 → ∃ d₃ status,
        transmitBuffer sender d₂ = some (sender.takeSequence, .freed d₃ status)) := by
  obtain ⟨d₁, d₂, hallocated, hplaced, hcarries, -, -⟩ :=
    placeFrame_allocateTxBuffer hallocate hmax
  obtain ⟨destination, source, ethertype, payload, hframe⟩ := exists_ethernetHeader hmin
  have hsource' : source = sender.macAddress := by
    rw [FixedBytes.ext_iff', ← hsource]
    exact (slice_of_drop (drop_of_append hframe destination.length_toList)
      source.length_toList).symm
  subst hsource'
  obtain ⟨d, hconvert, hh, hd, ho, htail, hb⟩ := transmitConvert_spec hs hap hcarries hframe
  rw [List.append_assoc] at hh
  have hmatches : keyMatchesHeader sender.macAddress
      (transmitHeader ap sender.macAddress destination sender.txSequenceControl) =
        KeyMetadata.isPairwise keyTx ap.macAddress := keyMatchesHeader_tx rfl hunicast
  have hfirst : sender.takeSequence.keys.find? (keyMatchesHeader sender.takeSequence.macAddress
      (transmitHeader ap sender.macAddress destination sender.txSequenceControl)) = some k :=
    (congrArg sender.keys.find? hmatches).trans hk
  have hheader : (transmitHeader ap sender.macAddress destination
      sender.txSequenceControl).protect.IsData := isToDs_protect_transmitHeader.toIsData
  refine ⟨d₁, d₂, hallocated, hplaced, fun hmore => ?_, fun hmore => ?_⟩
  · have hu : k.Usable := ⟨hindex, hc, hmore⟩
    have hsent : ∃ sequence sender' d₃ options,
        transmitWithKey sender.takeSequence (transmitHeader ap
          sender.macAddress destination sender.txSequenceControl) d =
            some (sender', .transmitted d₃ options) ∧
        SentWith k (transmitHeader ap sender.macAddress destination sender.txSequenceControl)
          (byteHeader ++ (ethertype.toList ++ payload)) d sequence
          (integrityCode k.cipher (KeyStore.txMicKey k) destination sender.macAddress
            (byteHeader ++ (ethertype.toList ++ payload))) d₃ options := by
      rcases hc with hc | ⟨hc, hlen⟩
      · rw [integrityCode, if_neg (by rw [hc]; decide)]
        exact transmitWithKey_of_ccmp hfirst hu hc hheader hh (by omega)
      · have hmic : (KeyStore.txMicKey k).toList = slice k.key tkipTxMicKeyOffset 8 := by
          refine FixedBytes.copy_of_length _ (length_slice ?_)
          rw [hlen]
          decide
        rw [integrityCode, if_pos hc]
        exact transmitWithKey_of_tkip _ hfirst hu hc hmic hheader hh (by omega) htail
    obtain ⟨sequence, sender', d₃, options, hsent, hw⟩ := hsent
    have hadvanced := transmitWithKey_advanced hfirst hu hsent
    refine ⟨sender', d₃, options, (transmitBuffer_of_convert hconvert).trans hsent, ?_,
      ⟨hadvanced.macAddress, hadvanced.association, hadvanced.keys⟩, fun trailer htrailer => ?_⟩
    · rw [hw.options]
    · refine ⟨destination, ethertype, payload, sender.txSequenceControl, sequence, trailer, hframe,
        hw.next, htrailer, ?_⟩
      rw [hw.holds.content, protectedBody]
      simp only [List.append_assoc]
  · have hu : ¬ k.Usable := fun hu => hmore hu.sequence
    obtain ⟨d₃, status, hfreed, -⟩ := transmitWithKey_of_unusable hfirst hu hh (by omega)
    exact ⟨d₃, status, (transmitBuffer_of_convert hconvert).trans hfreed⟩

end Transmit

/-! ## Packets of others -/

theorem runPlan_macAddress (device : Device) (header : HeaderDescription) (plan : ManagementPlan) :
    (runPlan device header plan).1.macAddress = device.macAddress := by
  unfold runPlan Device.applySection
  split
  · rfl
  · split
    · rfl
    · dsimp only
      split <;> rfl
  · dsimp only
    split <;> rfl
  · rfl

theorem Accepted.keys_of_unprotected {device : Device} {packet : List UInt8}
    {header : HeaderDescription} {rx : CipherRx} (ha : Accepted device packet header rx)
    (h : isUnprotected packet = true) : rx.1.keys = device.keys := by
  obtain ⟨d, hparse, rfl, -, hrx⟩ := ha.read
  rw [isUnprotected, hparse, Bool.not_eq_true'] at h
  rw [processProtection, h] at hrx
  cases hrx
  rfl

/-- A packet that is not protected leaves the keys alone. -/
theorem receive_unprotected {receiver receiver' : Device} {packet : List UInt8}
    {effects : List ReceiveEffect} (h : isUnprotected packet = true)
    (hp : processPacket receiver packet = some (receiver', effects)) :
    receiver'.macAddress = receiver.macAddress ∧ receiver'.keys = receiver.keys := by
  obtain ⟨device', effects', hp', hreceived⟩ := processPacket_received receiver packet
  cases hp.symm.trans hp'
  cases hreceived with
  | malformed | rejected => exact ⟨rfl, rfl⟩
  | management ha =>
    exact ⟨(runPlan_macAddress _ _ _).trans ha.macAddress,
      (KeyStore.runPlan_keys _ _ _).trans (ha.keys_of_unprotected h)⟩
  | unhandled ha => exact ⟨ha.macAddress, ha.keys_of_unprotected h⟩
  | misaddressed ha => exact ⟨ha.macAddress, ha.keys_of_unprotected h⟩
  | duplicate ha => exact ⟨ha.macAddress, ha.keys_of_unprotected h⟩
  | data ha => exact ⟨ha.macAddress, ha.keys_of_unprotected h⟩

/-! ## Runs -/

theorem Protected.congr {ap : AccessPoint} {source : MacAddress} {cipher : Cipher} {index : UInt8}
    {a b : FixedBytes 8} {number : Nat} {frame packet : List UInt8} (hab : cipher = .tkip → a = b)
    (h : Protected ap source cipher index a number frame packet) :
    Protected ap source cipher index b number frame packet := by
  obtain ⟨destination, ethertype, payload, sequenceControl, sequence, trailer, hframe, hnumber,
    htrailer, hpacket⟩ := h.exists_parts
  refine ⟨destination, ethertype, payload, sequenceControl, sequence, trailer, hframe, hnumber,
    htrailer, ?_⟩
  rw [hpacket, protectedBody, protectedBody, integrityCode, integrityCode]
  split
  · next hc => rw [hab hc]
  · rfl

namespace Channel

variable {allocate : Nat → Except Status TxBufferDescriptor} {ap : AccessPoint} {c c' : Channel}
  {k r : KeyMetadata} {frame trailer : List UInt8} {number : Nat} {e : Emission}
  {τ : List Transition} {base first : Nat}

/-- The sender protects its frames with the entry `k`, and the receiver has the entry `r` for
them. -/
structure Secure (ap : AccessPoint) (c : Channel) (k r : KeyMetadata) : Prop where
  associated : c.sender.association.state = .associated
  selected : c.sender.association.ap = some ap
  unicast : ap.macAddress.isGroup = false
  distinct : c.sender.macAddress ≠ ap.macAddress
  address : c.receiver.macAddress = ap.macAddress
  index : k.index ≤ 3
  cipher : k.cipher = .ccmp ∨ k.cipher = .tkip ∧ k.key.length = tkipKeySize
  sends : c.sender.keys.find? (KeyMetadata.isPairwise keyTx ap.macAddress) = some k
  receives : c.receiver.keys.find? (fun m => m.index == k.index &&
    KeyMetadata.isPairwise keyRx c.sender.macAddress m) = some r
  sameCipher : r.cipher = k.cipher
  length : k.cipher = .tkip → r.key.length = tkipKeySize
  micKey : k.cipher = .tkip → rxMicKey r = KeyStore.txMicKey k
  senderObjects : (c.sender.keys.map KeyMetadata.object).Nodup
  receiverObjects : (c.receiver.keys.map KeyMetadata.object).Nodup

/-- The sender has drawn a packet number. -/
theorem Secure.advanced (h : Secure ap c k r) {sender' : Device}
    (ha : Advanced c.sender sender' k) (air : List Emission) :
    ∃ sequence : FixedBytes 6, leValue sequence.toList = leValue k.txSequence.toList + 1 ∧
      Secure ap { c with sender := sender', air } { k with txSequence := sequence } r := by
  obtain ⟨sequence, hs, hexchanged⟩ := ha.keys
  refine ⟨sequence, hs, ?_, ?_, h.unicast, ?_, h.address, h.index, h.cipher, ?_, ?_, h.sameCipher,
    h.length, h.micKey, ?_, h.receiverObjects⟩
  · rw [ha.association]
    exact h.associated
  · rw [ha.association]
    exact h.selected
  · rw [ha.macAddress]
    exact h.distinct
  · have hk := List.find?_some h.sends
    exact hexchanged.find? h.senderObjects h.sends hk
  · rw [ha.macAddress]
    exact h.receives
  · rw [hexchanged.map_eq rfl]
    exact h.senderObjects

/-- The receiver has taken a packet number. -/
theorem Secure.taken (h : Secure ap c k r) {receiver' : Device} {sequence : FixedBytes 6}
    (hmac : receiver'.macAddress = c.receiver.macAddress)
    (hexchanged : Exchanged c.receiver.keys receiver'.keys r { r with rxSequence := sequence })
    (delivered : List Delivery) :
    Secure ap { c with receiver := receiver', delivered } k { r with rxSequence := sequence } := by
  refine ⟨h.associated, h.selected, h.unicast, h.distinct, hmac.trans h.address, h.index, h.cipher,
    h.sends, ?_, h.sameCipher, h.length, h.micKey, h.senderObjects, ?_⟩
  · have hr := List.find?_some h.receives
    exact hexchanged.find? h.receiverObjects h.receives hr
  · rw [hexchanged.map_eq rfl]
    exact h.receiverObjects

/-- The receiver has changed, but not its keys. -/
theorem Secure.kept (h : Secure ap c k r) (receiver' : Device)
    (hmac : receiver'.macAddress = c.receiver.macAddress)
    (hkeys : receiver'.keys = c.receiver.keys) (delivered : List Delivery) :
    Secure ap { c with receiver := receiver', delivered } k r := by
  refine ⟨h.associated, h.selected, h.unicast, h.distinct, hmac.trans h.address, h.index, h.cipher,
    h.sends, ?_, h.sameCipher, h.length, h.micKey, h.senderObjects, ?_⟩
  · rw [hkeys]
    exact h.receives
  · rw [hkeys]
    exact h.receiverObjects

theorem send_spec (hallocate : AllocatesExactly allocate) (h : Secure ap c k r)
    (hs : step allocate (.send frame trailer) c = some c') :
    (leValue k.txSequence.toList + 1 < 256 ^ 6 ∧ ∃ sequence packet,
      leValue sequence.toList = leValue k.txSequence.toList + 1 ∧
      Protected ap c.sender.macAddress r.cipher k.index (rxMicKey r)
        (leValue k.txSequence.toList + 1) frame packet ∧
      Secure ap c' { k with txSequence := sequence } r ∧ c'.air = c.air ++ [⟨frame, packet⟩] ∧
      c'.protectedFrames = c.protectedFrames ∧ c'.sender.macAddress = c.sender.macAddress) ∨
    ¬ leValue k.txSequence.toList + 1 < 256 ^ 6 ∧ Secure ap c' k r ∧ c'.air = c.air ∧
      c'.protectedFrames = c.protectedFrames ∧ c'.sender.macAddress = c.sender.macAddress := by
  rw [step] at hs
  split at hs
  · next hok =>
    obtain ⟨hmin, hmax, hsource⟩ := hok
    obtain ⟨d₁, d₂, hallocated, hplaced, hsent, hfreed⟩ := transmit_protected hallocate
      h.associated h.selected h.unicast h.index h.sends h.cipher hmin hmax hsource
    simp only [send, hallocated, hplaced, Option.bind_eq_bind, Option.bind_some] at hs
    by_cases hmore : leValue k.txSequence.toList + 1 < 256 ^ 6
    · obtain ⟨sender', d₃, options, ht, hcipher, hadvanced, hprotected⟩ := hsent hmore
      rw [ht, Option.bind_some] at hs
      dsimp only at hs
      split at hs
      · next htrailer =>
        cases hs
        obtain ⟨sequence, hsequence, hsecure⟩ := h.advanced hadvanced
          (c.air ++ [⟨frame, d₃.content ++ trailer⟩])
        rw [hcipher] at htrailer
        have hp := (hprotected trailer htrailer).congr fun htkip => (h.micKey htkip).symm
        rw [← h.sameCipher] at hp
        exact Or.inl ⟨hmore, sequence, _, hsequence, hp, hsecure, rfl, rfl, hadvanced.macAddress⟩
      · cases hs
    · obtain ⟨d₃, status, ht⟩ := hfreed hmore
      rw [ht, Option.bind_some] at hs
      cases hs
      exact Or.inr ⟨hmore, ⟨h.associated, h.selected, h.unicast, h.distinct, h.address, h.index,
        h.cipher, h.sends, h.receives, h.sameCipher, h.length, h.micKey, h.senderObjects,
        h.receiverObjects⟩, rfl, rfl, rfl⟩
  · cases hs

theorem arrive_spec {i : Nat} (h : Secure ap c k r) (he : c.air[i]? = some e)
    (hp : Protected ap c.sender.macAddress r.cipher k.index (rxMicKey r) number e.frame e.packet)
    (hs : step allocate (.arrive i) c = some c') :
    ((leValue r.rxSequence.toList < number ∧ ∃ sequence, leValue sequence.toList = number ∧
        Secure ap c' k { r with rxSequence := sequence } ∧
        c'.protectedFrames = c.protectedFrames ++ [e.frame]) ∨
      number ≤ leValue r.rxSequence.toList ∧ Secure ap c' k r ∧
        c'.protectedFrames = c.protectedFrames) ∧
    c'.air = c.air ∧ c'.sender = c.sender := by
  have hc : r.cipher = .ccmp ∨ r.cipher = .tkip ∧ r.key.length = tkipKeySize := by
    rw [h.sameCipher]
    exact h.cipher.imp_right fun htkip => ⟨htkip.1, h.length htkip.1⟩
  simp only [step, he, receive, hp.not_isUnprotected, Option.bind_eq_bind, Option.bind_some] at hs
  rcases receive_protected h.address h.unicast h.distinct h.index h.receives hc hp with
    ⟨hlt, receiver', sequence, hreceive, hmac, hnumber, hexchanged⟩ | ⟨hle, hreceive⟩
  · rw [hreceive, Option.bind_some] at hs
    cases hs
    refine ⟨Or.inl ⟨hlt, sequence, hnumber, h.taken hmac hexchanged _, ?_⟩, rfl, rfl⟩
    simp [protectedFrames, ReceiveEffect.frame?]
  · rw [hreceive, Option.bind_some] at hs
    cases hs
    refine ⟨Or.inr ⟨hle, h.kept c.receiver.counted rfl rfl _, ?_⟩, rfl, rfl⟩
    simp [protectedFrames]

theorem foreign_spec {packet : List UInt8} (h : Secure ap c k r)
    (hs : step allocate (.foreign packet) c = some c') :
    Secure ap c' k r ∧ c'.air = c.air ∧ c'.protectedFrames = c.protectedFrames ∧
      c'.sender = c.sender := by
  rw [step] at hs
  split at hs
  · next hu =>
    obtain ⟨⟨receiver', effects⟩, hp, hs⟩ := Option.bind_eq_some_iff.mp hs
    cases hs
    obtain ⟨hmac, hkeys⟩ := receive_unprotected hu hp
    refine ⟨h.kept receiver' hmac hkeys _, rfl, ?_, rfl⟩
    -- what it delivers is marked as unprotected
    have hnone : ((effects.filterMap ReceiveEffect.frame?).map fun frame =>
        (⟨frame, !isUnprotected packet⟩ : Delivery)).filter Delivery.isProtected = [] := by
      refine List.filter_eq_nil_iff.mpr fun d hd => ?_
      obtain ⟨frame, -, rfl⟩ := List.mem_map.mp hd
      simp [hu]
    rw [protectedFrames, List.filter_append, hnone, List.append_nil]
    rfl
  · cases hs

/-- The packet number of a position. -/
def packetNumber (base i : Nat) : Nat := base + i + 1

/-- What the devices have done so far. -/
structure Ordered (ap : AccessPoint) (base first : Nat) (τ : List Transition) (c : Channel)
    (k r : KeyMetadata) : Prop where
  secure : Secure ap c k r
  transmitted : leValue k.txSequence.toList = base + c.air.length
  taken : leValue r.rxSequence.toList =
    Replay.largest (packetNumber base) first (τ.filterMap arrival)
  packets : ∀ i e, c.air[i]? = some e → Protected ap c.sender.macAddress r.cipher k.index
    (rxMicKey r) (packetNumber base i) e.frame e.packet
  arrivals : ∀ i ∈ τ.filterMap arrival, i < c.air.length
  delivered : c.protectedFrames =
    (Replay.fresh (packetNumber base) first (τ.filterMap arrival)).filterMap fun i => c.frames[i]?
  frames : c.frames = (τ.filterMap sent).take (2 ^ 48 - 1 - base)

theorem length_frames (c : Channel) : c.frames.length = c.air.length := List.length_map _

/-- The frames that are sent while there are packet numbers left. -/
theorem take_concat {α : Type} {xs : List α} {n : Nat} (x : α) :
    (xs ++ [x]).take n = if (xs.take n).length < n then xs.take n ++ [x] else xs.take n := by
  rw [List.take_append, List.length_take]
  split
  · rw [List.take_of_length_le (by simp; omega : [x].length ≤ n - xs.length)]
  · rw [show n - xs.length = 0 by omega, List.take_zero, List.append_nil]

theorem Ordered.send (hallocate : AllocatesExactly allocate) (h : Ordered ap base first τ c k r)
    (hs : step allocate (.send frame trailer) c = some c') :
    ∃ k', Ordered ap base first (τ ++ [⟨c, .send frame trailer, c'⟩]) c' k' r := by
  have harrivals : List.filterMap arrival (τ ++ [⟨c, .send frame trailer, c'⟩]) =
      τ.filterMap arrival := Lts.filterMap_concat_none τ rfl
  have hsents : List.filterMap sent (τ ++ [⟨c, .send frame trailer, c'⟩]) =
      τ.filterMap sent ++ [frame] := Lts.filterMap_concat_some τ rfl
  have hlength := congrArg List.length h.frames
  rw [length_frames] at hlength
  rcases send_spec hallocate h.secure hs with
    ⟨hmore, sequence, packet, hsequence, hprotected, hsecure, hair, hdelivered, hmac⟩ |
      ⟨hmore, hsecure, hair, hdelivered, hmac⟩
  · rw [h.transmitted] at hmore hsequence hprotected
    have hframes : c'.frames = c.frames ++ [frame] := by
      rw [Channel.frames, hair, List.map_append]
      rfl
    refine ⟨_, hsecure, ?_, ?_, ?_, ?_, ?_, ?_⟩
    · rw [hair, List.length_append]
      exact hsequence
    · rw [harrivals]
      exact h.taken
    · intro i e he
      rw [hmac]
      rw [hair] at he
      rcases Nat.lt_or_ge i c.air.length with hi | hi
      · rw [List.getElem?_append_left hi] at he
        exact h.packets i e he
      · obtain ⟨hlt, he'⟩ := List.getElem?_eq_some_iff.mp he
        rw [List.length_append, List.length_singleton] at hlt
        obtain rfl : i = c.air.length := by omega
        rw [List.getElem_concat_length rfl] at he'
        exact he' ▸ hprotected
    · rw [harrivals, hair]
      intro i hi
      exact Nat.lt_of_lt_of_le (h.arrivals i hi) (by simp)
    · rw [hdelivered, h.delivered, harrivals]
      refine List.filterMap_congr fun i hi => ?_
      have hlt := h.arrivals i (Replay.fresh_sublist.subset hi)
      rw [← length_frames] at hlt
      rw [hframes, List.getElem?_append_left hlt]
    · rw [hframes, hsents, take_concat, ← hlength, if_pos (by omega), h.frames]
  · rw [h.transmitted] at hmore
    have hframes : c'.frames = c.frames := by rw [Channel.frames, hair, Channel.frames]
    refine ⟨k, hsecure, ?_, ?_, ?_, ?_, ?_, ?_⟩
    · rw [hair]
      exact h.transmitted
    · rw [harrivals]
      exact h.taken
    · rw [hair, hmac]
      exact h.packets
    · rw [harrivals, hair]
      exact h.arrivals
    · rw [hdelivered, harrivals, hframes]
      exact h.delivered
    · rw [hframes, hsents, take_concat, ← hlength, if_neg (by omega), h.frames]

theorem Ordered.arrive {i : Nat} (h : Ordered ap base first τ c k r)
    (hs : step allocate (.arrive i) c = some c') :
    ∃ r', Ordered ap base first (τ ++ [⟨c, .arrive i, c'⟩]) c' k r' := by
  have harrivals : List.filterMap arrival (τ ++ [⟨c, .arrive i, c'⟩]) =
      τ.filterMap arrival ++ [i] := Lts.filterMap_concat_some τ rfl
  have hsents : List.filterMap sent (τ ++ [⟨c, .arrive i, c'⟩]) = τ.filterMap sent :=
    Lts.filterMap_concat_none τ rfl
  obtain ⟨e, he, -⟩ := Option.bind_eq_some_iff.mp hs
  obtain ⟨hcase, hair, hsender⟩ := arrive_spec h.secure he (h.packets i e he) hs
  have hframes : c'.frames = c.frames := by rw [Channel.frames, hair, Channel.frames]
  have hframe : c.frames[i]? = some e.frame := by
    rw [Channel.frames, List.getElem?_map, he]
    rfl
  have hin : ∀ j ∈ τ.filterMap arrival ++ [i], j < c.air.length := by
    intro j hj
    rcases List.mem_append.mp hj with hj | hj
    · exact h.arrivals j hj
    · rw [List.mem_singleton] at hj
      exact hj ▸ (List.getElem?_eq_some_iff.mp he).1
  rcases hcase with ⟨hlt, sequence, hsequence, hsecure, hdelivered⟩ | ⟨hle, hsecure, hdelivered⟩
  · rw [h.taken] at hlt
    refine ⟨_, hsecure, ?_, ?_, ?_, ?_, ?_, ?_⟩
    · rw [hair]
      exact h.transmitted
    · rw [harrivals, Replay.largest_concat, max_eq_right hlt.le]
      exact hsequence
    · rw [hair, hsender]
      exact h.packets
    · rw [harrivals, hair]
      exact hin
    · rw [harrivals, Replay.fresh_concat, if_pos hlt, List.filterMap_append, hframes, hdelivered,
        h.delivered]
      simp [hframe]
    · rw [hframes, hsents]
      exact h.frames
  · rw [h.taken] at hle
    refine ⟨r, hsecure, ?_, ?_, ?_, ?_, ?_, ?_⟩
    · rw [hair]
      exact h.transmitted
    · rw [harrivals, Replay.largest_concat, max_eq_left hle]
      exact h.taken
    · rw [hair, hsender]
      exact h.packets
    · rw [harrivals, hair]
      exact hin
    · rw [harrivals, Replay.fresh_concat, if_neg (not_lt.mpr hle), List.append_nil, hframes,
        hdelivered]
      exact h.delivered
    · rw [hframes, hsents]
      exact h.frames

theorem Ordered.foreign {packet : List UInt8} (h : Ordered ap base first τ c k r)
    (hs : step allocate (.foreign packet) c = some c') :
    Ordered ap base first (τ ++ [⟨c, .foreign packet, c'⟩]) c' k r := by
  obtain ⟨hsecure, hair, hdelivered, hsender⟩ := foreign_spec h.secure hs
  have hframes : c'.frames = c.frames := by rw [Channel.frames, hair, Channel.frames]
  refine ⟨hsecure, ?_, ?_, ?_, ?_, ?_, ?_⟩
  · rw [hair]
    exact h.transmitted
  · rw [Lts.filterMap_concat_none τ rfl]
    exact h.taken
  · rw [hair, hsender]
    exact h.packets
  · rw [Lts.filterMap_concat_none τ rfl, hair]
    exact h.arrivals
  · rw [Lts.filterMap_concat_none τ rfl, hdelivered, hframes]
    exact h.delivered
  · rw [Lts.filterMap_concat_none τ rfl, hframes]
    exact h.frames

/-- **Each step keeps the frames in order.** -/
theorem Ordered.step {action : ChannelAction} (hallocate : AllocatesExactly allocate)
    (h : Ordered ap base first τ c k r) (hs : Channel.step allocate action c = some c') :
    ∃ k' r', Ordered ap base first (τ ++ [⟨c, action, c'⟩]) c' k' r' := by
  cases action with
  | send frame trailer =>
    obtain ⟨k', h'⟩ := h.send hallocate hs
    exact ⟨k', r, h'⟩
  | arrive i =>
    obtain ⟨r', h'⟩ := h.arrive hs
    exact ⟨k, r', h'⟩
  | foreign packet => exact ⟨k, r, h.foreign hs⟩

theorem ordered_init (link : Linked c.sender c.receiver ap)
    (hk : c.sender.keys.find? (KeyMetadata.isPairwise keyTx ap.macAddress) = some k)
    (hsender : (c.sender.keys.map KeyMetadata.object).Nodup)
    (hreceiver : (c.receiver.keys.map KeyMetadata.object).Nodup) (hair : c.air = [])
    (hdelivered : c.delivered = []) :
    ∃ r, leValue r.rxSequence.toList ≤ leValue k.txSequence.toList ∧
      Ordered ap (leValue k.txSequence.toList) (leValue r.rxSequence.toList) [] c k r := by
  obtain ⟨hu, r, hr, hm⟩ := link.key k hk
  refine ⟨r, Nat.le_of_lt_succ hm.sequence, ⟨link.associated, link.selected, link.unicast,
    fun he => link.distinct he.symm, link.address, hu.index, hu.cipher, hk, hr, hm.cipher,
    hm.length, fun hc => ?_, hsender, hreceiver⟩, ?_, rfl, ?_, ?_, ?_, ?_⟩
  · exact congrArg (FixedBytes.zero 8).copy (hm.mic hc)
  · rw [hair]
    rfl
  · intro i e he
    rw [hair] at he
    cases he
  · exact fun i hi => absurd hi List.not_mem_nil
  · rw [protectedFrames, hdelivered]
    rfl
  · rw [Channel.frames, hair]
    exact List.take_nil.symm

/-- **Of protected packets the receiver delivers the frames that were sent, each at most once and in
order**, whatever the network loses, repeats or reorders, and whatever unprotected packets come in
between: it takes a packet exactly when it has been sent after all that it has taken before. Nothing
is lost between the devices when the network keeps the order; and the sender sends frames as long as
it has packet numbers. -/
theorem channel_delivers_in_order {c₀ : Channel} (hallocate : AllocatesExactly allocate)
    (link : Linked c₀.sender c₀.receiver ap)
    (hk : c₀.sender.keys.find? (KeyMetadata.isPairwise keyTx ap.macAddress) = some k)
    (hsender : (c₀.sender.keys.map KeyMetadata.object).Nodup)
    (hreceiver : (c₀.receiver.keys.map KeyMetadata.object).Nodup) (hair : c₀.air = [])
    (hdelivered : c₀.delivered = []) (h : Lts.Run (step allocate) c₀ τ c) :
    c.protectedFrames =
      (Replay.fresh (· + 1) 0 (τ.filterMap arrival)).filterMap (fun i => c.frames[i]?) ∧
    c.protectedFrames.Sublist c.frames ∧
    ((τ.filterMap arrival).Pairwise (· < ·) →
      c.protectedFrames = (τ.filterMap arrival).filterMap fun i => c.frames[i]?) ∧
    c.frames = (τ.filterMap sent).take (2 ^ 48 - 1 - leValue k.txSequence.toList) := by
  obtain ⟨r, hle, hinit⟩ := ordered_init link hk hsender hreceiver hair hdelivered
  obtain ⟨k', r', hordered⟩ := h.history (P := fun τ c => ∃ k' r', Ordered ap
      (leValue k.txSequence.toList) (leValue r.rxSequence.toList) τ c k' r') ⟨k, r, hinit⟩
    fun _ _ _ _ _ ⟨_, _, hp⟩ hs => hp.step hallocate hs
  have hfresh : Replay.fresh (packetNumber (leValue k.txSequence.toList))
      (leValue r.rxSequence.toList) (τ.filterMap arrival) =
        Replay.fresh (· + 1) 0 (τ.filterMap arrival) := by
    refine Replay.fresh_congr (fun x y => ?_) fun x => ?_
    · rw [packetNumber, packetNumber]
      omega
    · rw [packetNumber]
      omega
  have hall := hordered.delivered
  rw [hfresh] at hall
  refine ⟨hall, ?_, fun hsorted => ?_, hordered.frames⟩
  · have hpositions : (Replay.fresh (· + 1) 0 (τ.filterMap arrival)).Pairwise
        fun x y => x + 1 < y + 1 := Replay.pairwise_fresh
    rw [hall]
    exact Replay.filterMap_getElem?_sublist (hpositions.imp Nat.lt_of_succ_lt_succ)
  · rw [hall, Replay.fresh_of_pairwise (hsorted.imp Nat.succ_lt_succ) fun x _ => Nat.succ_pos x]

end Channel

namespace Scenario

open Channel

/-- An unprotected packet with the frame of `ethernet 1`. -/
def copied : List UInt8 :=
  (transmitHeader (accessPoint 2) (mac 1) (mac 5) 0).bytes ++ (byteHeader ++ payload)

/-- The packet of a frame arrives twice, and an unprotected copy of it comes in between. -/
def repeated : List ChannelAction :=
  [.send (ethernet 1) [0, 0, 0, 0], .arrive 0, .foreign copied, .arrive 0]

def connected : Channel where
  sender := sender
  receiver := receiver
  air := []
  delivered := []

end Scenario

open Scenario in
theorem Channel.channel_delivers_in_order_repeated :
    ∃ c, Lts.exec (step allocate) repeated connected = some c ∧ c.frames = [ethernet 1] ∧
      c.delivered = [⟨ethernet 1, true⟩, ⟨ethernet 1, false⟩] ∧
      c.protectedFrames.Sublist c.frames := by
  have hrun : (Lts.exec (step allocate) repeated connected).map
      (fun c => (c.frames, c.delivered)) =
        some ([ethernet 1], [⟨ethernet 1, true⟩, ⟨ethernet 1, false⟩]) := by
    decide +kernel
  obtain ⟨c, hc, he⟩ := Option.map_eq_some_iff.mp hrun
  obtain ⟨hframes, hdelivered⟩ := Prod.mk.inj he
  have hfirst : connected.sender.keys.find?
      (KeyMetadata.isPairwise keyTx (accessPoint 2).macAddress) = some (tkipKey keyTx 2 8 9) := by
    decide
  obtain ⟨-, hsublist, -, -⟩ := channel_delivers_in_order allocatesExactly_allocate linked hfirst
    (List.nodup_singleton _) (List.nodup_singleton _) rfl rfl (Lts.exec_run hc)
  exact ⟨c, hc, hframes, hdelivered, hsublist⟩

end U80211
