import U80211.Properties.Roundtrip

/-!
# Which frames leave a device in the clear

A device that has a key for its access point is expected to send nothing unprotected. The key that
`u80211_transmit_buffer` takes depends on the source of the Ethernet frame, though.

* `transmitBuffer_outcome`: the first entry that matches decides, which is a transmit key for the
  access point for the device's own frames and a receive key for those of another station
* `KeyOutcome.noCleartext_iff`: when what an entry makes of a frame is what is expected
* `no_cleartext_iff`: **exactly when nothing leaves in the clear**
* `cleartext_sent`: a frame of another station leaves in the clear
-/

namespace U80211

open Memory

/-! ## What is expected -/

/-- The frame that the driver gets is protected: it has the bit, and starts with the header of a
cipher that some transmit key for the access point has, which the options name. -/
def TxBufferDescriptor.Protected (d : TxBufferDescriptor) (options : TransmitOptions)
    (keys : List KeyMetadata) (ap : AccessPoint) : Prop :=
  ∃ k ∈ keys, k.isPairwise keyTx ap.macAddress = true ∧
    ∃ (header : HeaderDescription) (index : UInt8) (sequence : FixedBytes 6) (body : List UInt8),
      hasFlag header.frameControl frameControlProtectedFrame = true ∧
      d.content = header.bytes ++ (cipherHeader k.cipher index sequence ++ body) ∧
      options = { key := some index, cipher := some k.cipher }

/-- Nothing leaves in the clear: the buffer is freed with an error, or the frame is protected. -/
def TransmitResult.NoCleartext (keys : List KeyMetadata) (ap : AccessPoint) :
    TransmitResult → Prop
  | .freed _ status => status ≠ .success
  | .transmitted d options => d.Protected options keys ap

/-- The source of an Ethernet frame. -/
def ethernetSource (frame : List UInt8) : MacAddress :=
  (FixedBytes.zero 6).copy (slice frame 6 6)

theorem ethernetSource_of_append {frame : List UInt8} {destination source : MacAddress}
    {rest : List UInt8} (h : frame = destination.toList ++ (source.toList ++ rest)) :
    ethernetSource frame = source := by
  have hslice : slice frame 6 6 = source.toList :=
    slice_of_drop (drop_of_append h destination.length_toList) source.length_toList
  rw [FixedBytes.ext_iff', ethernetSource, hslice]
  exact FixedBytes.copy_of_length _ source.length_toList

section

variable {device : Device} {ap : AccessPoint} {d : TxBufferDescriptor} {frame : List UInt8}

/-! ## The selected key -/

/-- What a matching entry makes of a frame, or the lack of one. -/
inductive KeyOutcome (keys : List KeyMetadata) (p : KeyMetadata → Bool) : TransmitResult → Prop
  /-- there is no entry: the frame leaves in the clear -/
  | clear (d : TxBufferDescriptor) : keys.find? p = none →
      KeyOutcome keys p (.transmitted d { key := none, cipher := none })
  /-- the first entry cannot be used -/
  | freed (d : TxBufferDescriptor) (status : Status) (k : KeyMetadata) : keys.find? p = some k →
      ¬ k.Usable → status ≠ .success → KeyOutcome keys p (.freed d status)
  /-- the first entry protects the frame -/
  | sent (d d' : TxBufferDescriptor) (options : TransmitOptions) (k : KeyMetadata)
      (header : HeaderDescription) (bs mic : List UInt8) (sequence : FixedBytes 6) :
      keys.find? p = some k → k.Usable →
      hasFlag header.protect.frameControl frameControlProtectedFrame = true →
      SentWith k header bs d sequence mic d' options → KeyOutcome keys p (.transmitted d' options)

/-- **The first entry that matches decides what becomes of a frame.** Whether an entry matches
depends on the source of the frame. -/
theorem transmitBuffer_outcome (hs : device.association.state = .associated)
    (hap : device.association.ap = some ap) (hunicast : ap.macAddress.isGroup = false)
    (h : d.Carries frame) (hlong : ethernetHeaderSize ≤ frame.length) :
    ∃ device' result, transmitBuffer device d = some (device', result) ∧
      KeyOutcome device.keys
        (if ethernetSource frame = device.macAddress then KeyMetadata.isPairwise keyTx ap.macAddress
          else KeyMetadata.isPairwise keyRx (ethernetSource frame)) result := by
  obtain ⟨destination, source, ethertype, payload, hframe⟩ := exists_ethernetHeader hlong
  rw [ethernetSource_of_append hframe]
  obtain ⟨d₁, hconvert, hh, -, ho, htail, -⟩ := transmitConvert_spec hs hap h hframe
  have hsent := transmitBuffer_of_convert hconvert
  rw [hsent]
  have hmatches : keyMatchesHeader device.macAddress
      (transmitHeader ap source destination device.txSequenceControl) =
        if source = device.macAddress then KeyMetadata.isPairwise keyTx ap.macAddress
        else KeyMetadata.isPairwise keyRx source := by
    split
    · next hown => exact keyMatchesHeader_tx hown hunicast
    · next hother => exact keyMatchesHeader_rx hother hunicast
  rw [← hmatches]
  cases hfirst : device.takeSequence.keys.find? (keyMatchesHeader device.takeSequence.macAddress
      (transmitHeader ap source destination device.txSequenceControl)) with
  | none =>
    obtain ⟨d', ht, -⟩ := transmitWithKey_of_none hfirst
      isToDs_transmitHeader.toIsData hh (by omega)
    exact ⟨_, _, ht, .clear d' hfirst⟩
  | some k =>
    by_cases hu : k.Usable
    · obtain ⟨sequence, mic, device', d', options, ht, hw⟩ :=
        transmitWithKey_of_usable hfirst hu
          isToDs_protect_transmitHeader.toIsData hh (by omega) htail
      exact ⟨device', _, ht, .sent _ d' options k _ _ mic sequence hfirst hu
        hasFlag_protect_protected hw⟩
    · obtain ⟨d', status, ht, hstatus⟩ :=
        transmitWithKey_of_unusable hfirst hu hh (by omega)
      exact ⟨_, _, ht, .freed d' status k hfirst hu hstatus⟩

/-- What is sent with an entry is what is expected when the entry's cipher is that of a transmit
key for the access point. -/
theorem KeyOutcome.noCleartext_iff {keys : List KeyMetadata} {p : KeyMetadata → Bool}
    {result : TransmitResult} (h : KeyOutcome keys p result) (ap : AccessPoint) :
    result.NoCleartext keys ap ↔ ∃ k, keys.find? p = some k ∧ (¬ k.Usable ∨
      ∃ k' ∈ keys, k'.isPairwise keyTx ap.macAddress = true ∧ k'.cipher = k.cipher) := by
  cases h with
  | clear d hn =>
    rw [hn]
    constructor
    · rintro ⟨k, -, -, header, index, sequence, body, -, -, hoptions⟩
      cases hoptions
    · rintro ⟨k, hk, -⟩
      cases hk
  | freed d status k hk hu hstatus =>
    constructor
    · intro _
      exact ⟨k, hk, Or.inl hu⟩
    · intro _
      exact hstatus
  | sent d d' options k header bs mic sequence hk hu hflag hw =>
    rw [hk]
    constructor
    · rintro ⟨k', hk', hpair, -, index, -, -, -, -, hoptions⟩
      rw [hw.options, TransmitOptions.mk.injEq, Option.some.injEq, Option.some.injEq] at hoptions
      exact ⟨k, rfl, Or.inr ⟨k', hk', hpair, hoptions.2.symm⟩⟩
    · rintro ⟨k₁, hk₁, hor⟩
      cases hk₁
      rcases hor with hnot | ⟨k', hk', hpair, hcipher⟩
      · exact absurd hu hnot
      · refine ⟨k', hk', hpair, header.protect, k.index, sequence, bs ++ mic, hflag, ?_, ?_⟩
        · rw [hw.holds.content, hcipher, List.append_assoc (cipherHeader _ _ _)]
        · rw [hw.options, hcipher]

/-- **Nothing leaves in the clear exactly when** the frame is too short to be sent, is the
device's own, or is that of a station for which there is a receive key, and that key cannot be used
or has the cipher of a transmit key for the access point. -/
theorem no_cleartext_iff (hs : device.association.state = .associated)
    (hap : device.association.ap = some ap) (hunicast : ap.macAddress.isGroup = false)
    (hinstalled : ∃ k ∈ device.keys, k.isPairwise keyTx ap.macAddress = true)
    (h : d.Carries frame) :
    (∃ device' result, transmitBuffer device d = some (device', result) ∧
        result.NoCleartext device.keys ap) ↔
      frame.length < ethernetHeaderSize ∨ ethernetSource frame = device.macAddress ∨
        ∃ k, device.keys.find? (KeyMetadata.isPairwise keyRx (ethernetSource frame)) = some k ∧
          (¬ k.Usable ∨ ∃ k' ∈ device.keys,
            k'.isPairwise keyTx ap.macAddress = true ∧ k'.cipher = k.cipher) := by
  rcases Nat.lt_or_ge frame.length ethernetHeaderSize with hshort | hlong
  · obtain ⟨d', hconvert⟩ := transmitConvert_of_short hs hap h hshort
    have ht : transmitBuffer device d = some (device, .freed d' .notEnoughSpace) := by
      rw [transmitBuffer, hconvert]
      rfl
    constructor
    · intro _
      exact Or.inl hshort
    · intro _
      exact ⟨device, _, ht, Status.noConfusion⟩
  · obtain ⟨device', result, ht, ho⟩ := transmitBuffer_outcome hs hap hunicast h hlong
    have hresult : (∃ device' result, transmitBuffer device d = some (device', result) ∧
        result.NoCleartext device.keys ap) ↔ result.NoCleartext device.keys ap := by
      rw [ht]
      constructor
      · rintro ⟨_, _, he, hn⟩
        cases he
        exact hn
      · exact fun hn => ⟨device', result, rfl, hn⟩
    rw [hresult, ho.noCleartext_iff ap]
    by_cases hown : ethernetSource frame = device.macAddress
    · -- the installed key is found
      rw [if_pos hown]
      constructor
      · intro _
        exact Or.inr (Or.inl hown)
      · intro _
        obtain ⟨k, hk⟩ := Option.isSome_iff_exists.mp (List.find?_isSome.mpr hinstalled)
        exact ⟨k, hk, Or.inr ⟨k, List.mem_of_find?_eq_some hk, List.find?_some hk, rfl⟩⟩
    · rw [if_neg hown]
      constructor
      · exact fun hk => Or.inr (Or.inr hk)
      · rintro (hshort | hsource | hk)
        · exact absurd hshort (Nat.not_lt.mpr hlong)
        · exact absurd hsource hown
        · exact hk

end

open Scenario in
theorem no_cleartext_iff_own :
    ∃ d device' result, d.Carries (ethernet 1) ∧
      transmitBuffer sender d = some (device', result) ∧
      result.NoCleartext sender.keys (accessPoint 2) := by
  obtain ⟨-, d, -, -, hcarries, -⟩ :=
    placeFrame_allocateTxBuffer allocatesExactly_allocate
      (show (ethernet 1).length ≤ ethernetMaxFrameSize by decide)
  have hap : sender.association.ap = some (accessPoint 2) := rfl
  obtain ⟨device', result, hsent, hresult⟩ :=
    (no_cleartext_iff rfl hap (by decide) ⟨_, List.mem_singleton_self _, by decide⟩ hcarries).mpr
      (Or.inr (Or.inl (by decide)))
  exact ⟨d, device', result, hcarries, hsent, hresult⟩

open Scenario in
/-- **A frame of another station leaves in the clear**, although the key for the access point is
installed. -/
theorem cleartext_sent :
    (∃ s, Scenario.run (join 0 2 ++ accept 1 2 0 ++ cleanup) = some s ∧
      s.association = sender.association) ∧
    ∃ d₁ d device' d', allocateTxBuffer allocate = .ok d₁ ∧ placeFrame d₁ (ethernet 4) = some d ∧
      sender.association.state = .associated ∧
      sender.association.ap = some (accessPoint 2) ∧
      (accessPoint 2).macAddress.isGroup = false ∧
      (∃ k ∈ sender.keys, k.isPairwise keyTx (accessPoint 2).macAddress = true) ∧
      transmitBuffer sender d =
        some (device', .transmitted d' { key := none, cipher := none }) ∧
      ¬ ∃ device' result, transmitBuffer sender d = some (device', result) ∧
        result.NoCleartext sender.keys (accessPoint 2) := by
  refine ⟨exists_associated, ?_⟩
  obtain ⟨d₁, d, hallocated, hplaced, hcarries, -⟩ :=
    placeFrame_allocateTxBuffer allocatesExactly_allocate
      (show (ethernet 4).length ≤ ethernetMaxFrameSize by decide)
  have hap : sender.association.ap = some (accessPoint 2) := rfl
  obtain ⟨device', result, hsent, ho⟩ := transmitBuffer_outcome rfl hap (by decide) hcarries
    (by decide)
  have hother : ethernetSource (ethernet 4) ≠ sender.macAddress := by decide
  rw [if_neg hother] at ho
  have hnone : sender.keys.find? (KeyMetadata.isPairwise keyRx (ethernetSource (ethernet 4))) =
      none := by decide
  have hclear : ¬ result.NoCleartext sender.keys (accessPoint 2) := by
    rw [ho.noCleartext_iff, hnone]
    rintro ⟨k, hk, -⟩
    cases hk
  cases ho with
  | clear d' =>
    refine ⟨d₁, d, device', d', hallocated, hplaced, rfl, hap, by decide,
      ⟨_, List.mem_singleton_self _, by decide⟩, hsent, ?_⟩
    rw [hsent]
    rintro ⟨_, _, he, hprotected⟩
    cases he
    exact hclear hprotected
  | freed d' status k hk => cases hnone.symm.trans hk
  | sent d d' options k header bs mic sequence hk => cases hnone.symm.trans hk

end U80211
