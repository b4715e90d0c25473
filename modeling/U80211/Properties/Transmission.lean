import U80211.Properties.Requests
import U80211.Properties.Ssid
import U80211.Properties.Transmit
import U80211.Transmission

/-!
# Every buffer is given up once

* `Ops.transmitBuffer_eq`: the recorded calls are what `Data.lean` says becomes of the descriptor
* `transmitBuffer_keeps`: the pointer to the buffer is the driver's again, and the references are
  balanced
* `sendManagementPacket_consumes`: the same for the management frames
* `buffers_consumed_once`: **a buffer is freed or transmitted, once, whatever goes wrong**
-/

namespace U80211

open Memory TxBufferDescriptor

section

variable {driver : Driver} {s s' : Ops} {device device' : Device}
  {header header' : HeaderDescription}
  {d d' : TxBufferDescriptor} {key : UInt8}

/-! ## The recorded calls -/

namespace Ops

/-- What becomes of a descriptor, as a call of the driver and the status that is returned. -/
def settle (driver : Driver) (s : Ops) : Device × TransmitResult → Ops × Status
  | (device, .freed d status) => ((s.withDevice device).call (.freeTxBuffer d), status)
  | (device, .transmitted d options) =>
    ((s.withDevice device).call (.transmit d options), driver.transmit d options)

/-- With its driver calls, the last step hands over what the one without them does. -/
theorem transmitFrame_eq (driver : Driver) (s : Ops) (header : HeaderDescription)
    (d : TxBufferDescriptor) (options : TransmitOptions) :
    s.transmitFrame driver header d options =
      (U80211.transmitFrame s.device header d options).map (s.settle driver) := by
  unfold Ops.transmitFrame U80211.transmitFrame
  cases hs : serializeHeader header d with
  | none => rfl
  | some r => cases r <;> rfl

/-- So do the sections of the keys. -/
theorem transmitWithKey_eq (driver : Driver) (s : Ops) (header : HeaderDescription)
    (d : TxBufferDescriptor) :
    s.transmitWithKey driver header d =
      (U80211.transmitWithKey s.device header d).map (s.settle driver) := by
  unfold Ops.transmitWithKey U80211.transmitWithKey
  cases hkey : selectKey s.device.macAddress s.device.keys header with
  | none => exact transmitFrame_eq driver s header d _
  | some key =>
    dsimp only
    split
    · rfl
    · cases hcipher : selectCipherByIndex s.device.macAddress s.device.keys header key with
      | none => rfl
      | some cipher =>
        cases cipher with
        | ccmp =>
          cases hp : prepareCcmpTx s.device header key d with
          | none => simp [prepareCipherTx, hp]
          | some r =>
            rcases r with ⟨status, d'⟩ | ⟨device, header', d'⟩
            · simp [prepareCipherTx, hp]; rfl
            · simp [prepareCipherTx, hp, transmitFrame_eq]; rfl
        | tkip =>
          cases hp : prepareTkipTx s.device header key d with
          | none => simp [prepareCipherTx, hp]
          | some r =>
            rcases r with ⟨status, d'⟩ | ⟨device, header', d'⟩
            · simp [prepareCipherTx, hp]; rfl
            · simp [prepareCipherTx, hp, transmitFrame_eq]; rfl
        | wep40 => rfl
        | wep104 => rfl

/-- The first part of a transmission: an early return, or the state with which it goes on. -/
def settleConvert (driver : Driver) (s : Ops) :
    Device × Except TransmitResult (HeaderDescription × TxBufferDescriptor) →
      Except (Ops × Status) (Ops × HeaderDescription × TxBufferDescriptor)
  | (device, .error result) => .error (s.settle driver (device, result))
  | (device, .ok (header, d)) => .ok (s.withDevice device, header, d)

/-- So does the conversion. -/
theorem transmitConvert_eq (driver : Driver) (s : Ops) (d : TxBufferDescriptor) :
    s.transmitConvert d = (U80211.transmitConvert s.device d).map (s.settleConvert driver) := by
  unfold Ops.transmitConvert U80211.transmitConvert
  split
  · rfl
  · cases hap : s.device.association.ap with
    | none => rfl
    | some ap =>
      dsimp only
      split
      · rfl
      · split
        · rfl
        · simp only [Option.bind_eq_bind, Option.map_bind, Function.comp_def]
          refine congrArg _ (funext fun destination => ?_)
          refine congrArg _ (funext fun source => ?_)
          refine congrArg _ (funext fun ethertype => ?_)
          rcases TxBufferDescriptor.allocateSpace _ llcSnapSize with _ | ⟨llcSnap, d'⟩
          · rfl
          · simp only [Option.map_bind, Function.comp_def]
            rfl

/-- **The calls of a transmission are what becomes of its descriptor.** -/
theorem transmitBuffer_eq (driver : Driver) (s : Ops) (d : TxBufferDescriptor) :
    s.transmitBuffer driver d =
      (U80211.transmitBuffer s.device d).map (s.settle driver) := by
  rw [Ops.transmitBuffer, U80211.transmitBuffer, transmitConvert_eq driver]
  rcases U80211.transmitConvert s.device d with _ | ⟨device, result | ⟨header, d'⟩⟩
  · rfl
  · rfl
  · exact transmitWithKey_eq driver (s.withDevice device) header d'

end Ops

/-! ## The pointer to the buffer, and the references -/

theorem write_data {off : Nat} {bs : List UInt8} (h : d.write off bs = some d') :
    d'.data = d.data := by
  obtain ⟨buffer, -, rfl⟩ := Option.map_eq_some_iff.mp h
  rfl

theorem allocateSpace_data {n off : Nat} (h : d.allocateSpace n = some (off, d')) :
    d'.data = d.data := by
  unfold TxBufferDescriptor.allocateSpace at h
  split at h
  · cases h
  · cases h
    rfl

theorem serializeHeader_data (h : serializeHeader header d = some (.ok d')) :
    d'.data = d.data := by
  by_cases hs : header.Supported
  · rw [serializeHeader_of_supported hs] at h
    split at h
    · cases h
    · next hspace =>
      obtain ⟨d₁, hw, he⟩ := Option.map_eq_some_iff.mp h
      cases he
      exact (write_data hw).trans (allocateSpace_data hspace)
  · rw [serializeHeader_of_not_supported hs] at h
    cases h

/-- The descriptor that `ops->free_tx_buffer` or `ops->transmit` is called with. -/
def TransmitResult.descriptor : TransmitResult → TxBufferDescriptor
  | .freed d _ => d
  | .transmitted d _ => d

/-- The last step keeps the start of the buffer and the references. -/
theorem transmitFrame_keeps {options : TransmitOptions} {result : TransmitResult}
    (h : transmitFrame device header d options = some (device', result)) :
    result.descriptor.data = d.data ∧ device'.references = device.references := by
  unfold transmitFrame at h
  cases hs : serializeHeader header d with
  | none => simp [hs] at h
  | some r =>
    rcases r with status | d₁
    · simp only [hs, Option.bind_eq_bind, Option.bind_some] at h
      cases h
      exact ⟨rfl, rfl⟩
    · simp only [hs, Option.bind_eq_bind, Option.bind_some] at h
      cases h
      exact ⟨serializeHeader_data hs, rfl⟩

/-- The preparation of a cipher header moves neither the pointer nor a reference. -/
def CipherKeeps (device : Device) (d : TxBufferDescriptor) : CipherTx → Prop
  | .error (_, d') => d'.data = d.data
  | .ok (device', _, d') => d'.data = d.data ∧ device'.references = device.references

/-- So does the preparation for CCMP. -/
theorem prepareCcmpTx_keeps {r : CipherTx} (h : prepareCcmpTx device header key d = some r) :
    CipherKeeps device d r := by
  unfold prepareCcmpTx at h
  split at h
  · cases h
    rfl
  · next hspace =>
    split at h
    · cases h
      exact allocateSpace_data hspace
    · obtain ⟨d₁, hw, he⟩ := Option.bind_eq_some_iff.mp h
      cases he
      exact ⟨(write_data hw).trans (allocateSpace_data hspace), rfl⟩

/-- So does that for TKIP. -/
theorem prepareTkipTx_keeps {r : CipherTx} (h : prepareTkipTx device header key d = some r) :
    CipherKeeps device d r := by
  unfold prepareTkipTx at h
  dsimp only at h
  split at h
  · cases h
    rfl
  · next hspace =>
    simp only [Option.bind_eq_bind, Option.bind_eq_some_iff] at h
    obtain ⟨data, -, drawn, -, h⟩ := h
    split at h
    · cases h
      exact allocateSpace_data hspace
    · simp only [Option.bind_eq_some_iff] at h
      obtain ⟨d₁, hw₁, d₂, hw₂, he⟩ := h
      cases he
      refine ⟨?_, rfl⟩
      exact (write_data hw₂).trans ((write_data hw₁).trans (allocateSpace_data hspace))

theorem prepareCipherTx_keeps {cipher : Option Cipher} {r : CipherTx}
    (h : prepareCipherTx device header key d cipher = some r) : CipherKeeps device d r := by
  unfold prepareCipherTx at h
  split at h
  · exact prepareCcmpTx_keeps h
  · exact prepareTkipTx_keeps h
  · cases h
    rfl

theorem transmitWithKey_keeps {result : TransmitResult}
    (h : transmitWithKey device header d = some (device', result)) :
    result.descriptor.data = d.data ∧ device'.references = device.references := by
  unfold transmitWithKey at h
  split at h
  · exact transmitFrame_keeps h
  · split at h
    · cases h
      exact ⟨rfl, rfl⟩
    · obtain ⟨r, hp, h⟩ := Option.bind_eq_some_iff.mp h
      have hkeeps := prepareCipherTx_keeps hp
      rcases r with ⟨status, d₁⟩ | ⟨device₁, header₁, d₁⟩
      · cases h
        exact ⟨hkeeps, rfl⟩
      · obtain ⟨hdata, hreferences⟩ := transmitFrame_keeps h
        exact ⟨hdata.trans hkeeps.1, hreferences.trans hkeeps.2⟩

/-- What the first part of a transmission keeps: the pointer is where the driver has set it. -/
def ConvertKeeps (device : Device) (d : TxBufferDescriptor) :
    Device × Except TransmitResult (HeaderDescription × TxBufferDescriptor) → Prop
  | (device', .error result) =>
    result.descriptor.data = d.data - txBufferHeadroom ∧ device'.references = device.references
  | (device', .ok (_, d')) =>
    d'.data = d.data - txBufferHeadroom ∧ device'.references = device.references

/-- So does the conversion. -/
theorem transmitConvert_keeps
    {r : Device × Except TransmitResult (HeaderDescription × TxBufferDescriptor)}
    (h : transmitConvert device d = some r) : ConvertKeeps device d r := by
  unfold transmitConvert at h
  split at h
  · cases h
  · dsimp only at h
    split at h
    · cases h
      exact ⟨rfl, rfl⟩
    · next ap _ =>
      have hbalanced := congrArg Device.references (release_hold device ap)
      split at h
      · cases h
        exact ⟨rfl, rfl⟩
      · split at h
        · cases h
          exact ⟨rfl, hbalanced⟩
        · simp only [Option.bind_eq_bind, Option.bind_eq_some_iff] at h
          obtain ⟨destination, -, source, -, ethertype, -, h⟩ := h
          split at h
          · cases h
            exact ⟨rfl, hbalanced⟩
          · next hspace =>
            simp only [Option.bind_eq_some_iff] at h
            obtain ⟨d₁, hw₁, d₂, hw₂, he⟩ := h
            cases he
            exact ⟨(write_data hw₂).trans ((write_data hw₁).trans (allocateSpace_data hspace)),
              hbalanced⟩

/-- **A transmission gives the driver its own pointer back, and keeps the references balanced.** -/
theorem transmitBuffer_keeps {result : TransmitResult}
    (h : transmitBuffer device d = some (device', result)) :
    result.descriptor.data = d.data - txBufferHeadroom ∧
      device'.references = device.references := by
  obtain ⟨r, hconvert, h⟩ := Option.bind_eq_some_iff.mp h
  have hkeeps := transmitConvert_keeps hconvert
  rcases r with ⟨device₁, result₁ | ⟨header, d₁⟩⟩
  · cases h
    exact hkeeps
  · obtain ⟨hdata, hreferences⟩ := transmitWithKey_keeps h
    exact ⟨hdata.trans hkeeps.1, hreferences.trans hkeeps.2⟩

/-! ## A transmission returns -/

theorem transmitWithKey_isSome {bs : List UInt8} (hdata : header.IsData)
    (hprotect : header.protect.IsData) (h : d.Holds bs) (hn : 32 ≤ d.currentOffset)
    (ht : d.data + d.size + txBufferTailroom ≤ d.buffer.length) :
    ∃ r, transmitWithKey device header d = some r := by
  cases hk : device.keys.find? (keyMatchesHeader device.macAddress header) with
  | none =>
    obtain ⟨d', he, -⟩ := transmitWithKey_of_none hk hdata h (by omega)
    exact ⟨_, he⟩
  | some k =>
    by_cases hu : k.Usable
    · obtain ⟨sequence, mic, device', d', options, he, -⟩ :=
        transmitWithKey_of_usable hk hu hprotect h hn ht
      exact ⟨_, he⟩
    · obtain ⟨d', status, he, -⟩ := transmitWithKey_of_unusable hk hu h hn
      exact ⟨_, he⟩

/-- Nothing outside of the buffer is accessed, whatever the frame is. -/
theorem transmitBuffer_isSome {frame : List UInt8} (device : Device) (h : d.Carries frame) :
    ∃ r, transmitBuffer device d = some r := by
  cases hap : device.association.ap with
  | none =>
    rw [transmitBuffer, transmitConvert, if_neg (Nat.not_lt.mpr h.headroom), hap]
    exact ⟨_, rfl⟩
  | some ap =>
    by_cases hs : device.association.state = .associated
    · by_cases hshort : frame.length < ethernetHeaderSize
      · obtain ⟨d', hconvert⟩ := transmitConvert_of_short hs hap h hshort
        rw [transmitBuffer, hconvert]
        exact ⟨_, rfl⟩
      · obtain ⟨destination, source, ethertype, payload, hframe⟩ :=
          exists_ethernetHeader (Nat.not_lt.mp hshort)
        obtain ⟨d', hconvert, hholds, -, hoffset, htail, -⟩ :=
          transmitConvert_spec hs hap h hframe
        rw [transmitBuffer_of_convert hconvert]
        exact transmitWithKey_isSome isToDs_transmitHeader.toIsData
          isToDs_protect_transmitHeader.toIsData hholds (by omega) htail
    · rw [transmitBuffer, transmitConvert, if_neg (Nat.not_lt.mpr h.headroom), hap]
      dsimp only
      rw [if_pos hs]
      exact ⟨_, rfl⟩

/-! ## Who gives a buffer up -/

/-- The call gives the buffer of the descriptor up. -/
def DriverCall.GivesUp (d : TxBufferDescriptor) (call : DriverCall) : Prop :=
  call = .freeTxBuffer d ∨ ∃ options, call = .transmit d options

/-- The driver answers with a descriptor that lies inside of its buffer. -/
def Driver.Sound (driver : Driver) : Prop :=
  ∀ size d, driver.allocateTxBuffer size = .ok d →
    d.currentOffset ≤ d.size ∧ d.data + d.size ≤ d.buffer.length

/-- What a caller of `u80211_allocate_tx_buffer` may do with the descriptor: it puts a frame of any
size into the buffer, or none at all. -/
structure TxBufferDescriptor.Filled (d₁ d : TxBufferDescriptor) : Prop where
  data : d.data = d₁.data
  size : d.size ≤ d₁.size
  offset : d.currentOffset ≤ d.size
  buffer : d.buffer.length = d₁.buffer.length

/-- The descriptor of `u80211_allocate_tx_buffer` is the driver's, moved by the headroom. -/
theorem carries_of_filled {size : Nat} {d₀ d₁ : TxBufferDescriptor} (hsound : driver.Sound)
    (hdriver : driver.allocateTxBuffer size = .ok d₀)
    (hroom : txBufferHeadroom + txBufferTailroom ≤ d₀.currentOffset)
    (hd₁ : d₁ = { d₀ with
      data := d₀.data + txBufferHeadroom
      size := d₀.size - (txBufferHeadroom + txBufferTailroom)
      currentOffset := d₀.currentOffset - (txBufferHeadroom + txBufferTailroom) })
    (hfilled : d₁.Filled d) : d.Carries d.content ∧ d.data - txBufferHeadroom = d₀.data := by
  obtain ⟨hoffset, hbounds⟩ := hsound size d₀ hdriver
  obtain ⟨hdata, hsize, hin, hbuffer⟩ := hfilled
  subst hd₁
  dsimp only at hdata hsize hbuffer
  refine ⟨⟨?_, ?_, hin, ?_, rfl⟩, ?_⟩ <;> omega

/-- **A transmission gives the buffer up once.** -/
theorem Ops.transmitBuffer_consumes {frame : List UInt8} (driver : Driver) (s : Ops)
    (h : d.Carries frame) :
    ∃ s' status d' call, s.transmitBuffer driver d = some (s', status) ∧
      s'.calls = s.calls ++ [call] ∧ call.GivesUp d' ∧ d'.data = d.data - txBufferHeadroom ∧
      s'.device.references = s.device.references := by
  obtain ⟨⟨device', result⟩, hr⟩ := transmitBuffer_isSome s.device h
  obtain ⟨hdata, hreferences⟩ := transmitBuffer_keeps hr
  rw [Ops.transmitBuffer_eq, hr, Option.map_some]
  cases result with
  | freed d' status => exact ⟨_, _, d', _, rfl, rfl, Or.inl rfl, hdata, hreferences⟩
  | transmitted d' options =>
    exact ⟨_, _, d', _, rfl, rfl, Or.inr ⟨options, rfl⟩, hdata, hreferences⟩

/-! ## Management frames -/

/-- A sender asks for one buffer. If it gets none it calls the driver no more; if it gets one it
gives it up once. -/
def ConsumesOnce (driver : Driver) (s : Ops) (result : Option (Ops × Status)) : Prop :=
  ∃ size s' status, result = some (s', status) ∧
    (∀ e, driver.allocateTxBuffer size = .error e →
      s'.calls = s.calls ++ [.allocateTxBuffer size] ∧ status = e) ∧
    ∀ d₀, driver.allocateTxBuffer size = .ok d₀ → ∃ d' call, call.GivesUp d' ∧
      d'.data = d₀.data ∧ s'.calls = s.calls ++ [.allocateTxBuffer size, call]

/-- What the preparation leaves of a buffer that the driver has answered with: it has been freed, or
the header is in it and there is space for the data. -/
def Prepared (s : Ops) (size dataSize : Nat) (d₀ : TxBufferDescriptor) :
    Ops × Except Status (TxBufferDescriptor × Nat) → Prop
  | (s', .error _) => ∃ d, d.data = d₀.data ∧
      s'.calls = s.calls ++ [.allocateTxBuffer size, .freeTxBuffer d]
  | (s', .ok (d, data)) => d.data = d₀.data ∧ data + dataSize ≤ d.buffer.length ∧
      s'.calls = s.calls ++ [.allocateTxBuffer size]

/-- A buffer that has been allocated is prepared, or freed. -/
theorem prepareManagementPacket_of_ok (hsound : driver.Sound) (s : Ops) (address : MacAddress)
    {subtype : UInt16} {dataSize : Nat} {d₀ : TxBufferDescriptor}
    (htype : frameControlGetType (subtype <<< 4) = frameControlTypeManagement)
    (hallocate : driver.allocateTxBuffer (managementHeaderSize + dataSize) = .ok d₀) :
    ∃ r, prepareManagementPacket driver s address subtype dataSize = some r ∧
      Prepared s (managementHeaderSize + dataSize) dataSize d₀ r := by
  obtain ⟨hoffset, hbounds⟩ := hsound _ _ hallocate
  rw [prepareManagementPacket, hallocate]
  dsimp only
  by_cases hspace : dataSize ≤ d₀.currentOffset
  · rw [allocateSpace_of_le hspace]
    dsimp only
    obtain ⟨header, hheader⟩ : ∃ header, header =
      managementHeader (s.call (.allocateTxBuffer (managementHeaderSize + dataSize))).device
        address subtype := ⟨_, rfl⟩
    have hsupported : header.Supported := Or.inl (by rw [hheader]; exact htype)
    rw [← hheader, serializeHeader_of_supported hsupported]
    by_cases hheaderSpace : header.wire.length ≤ d₀.currentOffset - dataSize
    · obtain ⟨buffer, hw⟩ : ∃ buffer, writeBytes d₀.buffer
          (d₀.data + (d₀.currentOffset - dataSize - header.wire.length)) header.wire =
            some buffer := ⟨_, writeBytes_of_le (by omega)⟩
      rw [allocateSpace_of_le (d := { d₀ with currentOffset := d₀.currentOffset - dataSize })
        hheaderSpace]
      simp only [TxBufferDescriptor.write, hw, Option.map_some, Option.bind_eq_bind,
        Option.bind_some]
      refine ⟨_, rfl, rfl, ?_, rfl⟩
      rw [length_writeBytes hw]
      omega
    · rw [TxBufferDescriptor.allocateSpace, if_pos (Nat.not_le.mp hheaderSpace)]
      exact ⟨_, rfl, { d₀ with currentOffset := d₀.currentOffset - dataSize }, rfl,
        by simp [Ops.call, Ops.nextSequence]⟩
  · rw [TxBufferDescriptor.allocateSpace, if_pos (Nat.not_le.mp hspace)]
    exact ⟨_, rfl, d₀, rfl, by simp [Ops.call]⟩

/-- A management frame gives its buffer up once. -/
theorem sendManagementPacket_consumes (hsound : driver.Sound) (s : Ops) (address : MacAddress)
    {subtype : UInt16} {dataSize : Nat} {body : Nat → Stores}
    (htype : frameControlGetType (subtype <<< 4) = frameControlTypeManagement)
    (hbody : ∀ data, Consecutive data (body data) ∧ (storedBytes (body data)).length = dataSize) :
    ConsumesOnce driver s (sendManagementPacket driver s address subtype dataSize body) := by
  refine ⟨managementHeaderSize + dataSize, ?_⟩
  cases hallocate : driver.allocateTxBuffer (managementHeaderSize + dataSize) with
  | error e =>
    refine ⟨s.call (.allocateTxBuffer (managementHeaderSize + dataSize)), e, ?_, ?_, ?_⟩
    · simp [sendManagementPacket, prepareManagementPacket, hallocate]
    · rintro e' ⟨⟩
      exact ⟨rfl, rfl⟩
    · rintro d₀ ⟨⟩
  | ok d₀ =>
    obtain ⟨r, hr, hprepared⟩ :=
      prepareManagementPacket_of_ok hsound s address htype hallocate
    rw [sendManagementPacket, hr]
    rcases r with ⟨s₁, status | ⟨d, data⟩⟩
    · obtain ⟨d, hdata, hcalls⟩ := hprepared
      refine ⟨s₁, status, rfl, (fun e h => by cases h), ?_⟩
      rintro d₀' ⟨⟩
      exact ⟨d, _, Or.inl rfl, hdata, hcalls⟩
    · obtain ⟨hdata, hroom, hcalls⟩ := hprepared
      obtain ⟨hconsecutive, hlength⟩ := hbody data
      obtain ⟨d', hw⟩ : ∃ d', d.write data (storedBytes (body data)) = some d' := by
        rw [TxBufferDescriptor.write, writeBytes_of_le (by rwa [hlength])]
        exact ⟨_, rfl⟩
      have hstore : d.store (body data) = some d' :=
        (hconsecutive.store d (by rwa [hlength])).trans hw
      let options : TransmitOptions := { key := none, cipher := none }
      refine ⟨s₁.call (.transmit d' options), driver.transmit d' options, by simp [hstore, options],
        (fun e h => by cases h), ?_⟩
      rintro d₀' ⟨⟩
      refine ⟨d', .transmit d' options, Or.inr ⟨options, rfl⟩, (write_data hw).trans hdata, ?_⟩
      rw [Ops.call, hcalls, List.append_assoc]
      rfl

/-- **Every buffer is given up once.** A buffer of `u80211_allocate_tx_buffer`, whatever frame has
been put into it, is freed or handed to the driver for transmission by `u80211_transmit_buffer`:
one call, with the driver's own pointer, on every way out, and no reference is kept or lost. A
sender of a management frame that gets a buffer does the same with it, and one that gets none does
nothing. -/
theorem buffers_consumed_once (driver : Driver) (hsound : driver.Sound) (s : Ops) :
    (∀ d₀ d₁ d,
      driver.allocateTxBuffer (ethernetMaxFrameSize + txBufferHeadroom + txBufferTailroom) =
        .ok d₀ →
      txBufferHeadroom + txBufferTailroom ≤ d₀.currentOffset →
      (s.allocateTxBuffer driver).2 = .ok d₁ → d₁.Filled d →
      ∃ s' status d' call, s.transmitBuffer driver d = some (s', status) ∧
        s'.calls = s.calls ++ [call] ∧ call.GivesUp d' ∧ d'.data = d₀.data ∧
        s'.device.references = s.device.references) ∧
    (∀ authData, ConsumesOnce driver s (sendAuthentication driver s authData)) ∧
    (∀ deauthenticationData,
      ConsumesOnce driver s (sendDeauthentication driver s deauthenticationData)) ∧
    (∀ rateBitmap, ConsumesOnce driver s (sendProbeRequest driver s rateBitmap)) ∧
    ∀ ap rateBitmap informationElements, s.device.association.ap = some ap →
      ConsumesOnce driver s (sendAssociationRequest driver s rateBitmap informationElements) := by
  refine ⟨fun d₀ d₁ d hdriver hroom hallocated hfilled => ?_, fun authData => ?_,
    fun deauthenticationData => ?_, fun rateBitmap => ?_,
    fun ap rateBitmap informationElements hap => ?_⟩
  · have hd₁ := hallocated
    rw [Ops.allocateTxBuffer, allocateTxBuffer, hdriver] at hd₁
    obtain ⟨hcarries, hpointer⟩ :=
      carries_of_filled hsound hdriver hroom (Except.ok.inj hd₁).symm hfilled
    obtain ⟨s', status, d', call, hs, hcalls, hgives, hdata, hreferences⟩ :=
      Ops.transmitBuffer_consumes driver s hcarries
    exact ⟨s', status, d', call, hs, hcalls, hgives, hdata.trans hpointer, hreferences⟩
  · exact sendManagementPacket_consumes hsound s _ (by decide) fun data =>
      ⟨.cons (.cons (.cons .nil)), rfl⟩
  · exact sendManagementPacket_consumes hsound s _ (by decide) fun data => ⟨.cons .nil, rfl⟩
  · refine sendManagementPacket_consumes hsound s _ (by decide) fun data => ?_
    obtain ⟨hconsecutive, hbytes, hlength⟩ := probeRequestBody_spec rateBitmap data
    exact ⟨hconsecutive, (congrArg List.length hbytes).trans hlength⟩
  · rw [sendAssociationRequest, hap]
    refine sendManagementPacket_consumes hsound s _ (by decide) fun data => ?_
    obtain ⟨hconsecutive, -, hlength⟩ :=
      associationRequestBody_spec ap rateBitmap informationElements data
    exact ⟨hconsecutive, hlength⟩

end

namespace Scenario

theorem driver_sound : driver.Sound := by
  intro size d hd
  cases Except.ok.inj hd
  refine ⟨Nat.le_refl _, ?_⟩
  show 0 + size ≤ (List.replicate size (0 : UInt8)).length
  rw [List.length_replicate, Nat.zero_add]

/-- Station 1 is transmitting. -/
def transmitting : Ops where
  device :=
    station 1 { Association.registered with state := .associated, ap := some ssidAccessPoint } []
  calls := []

end Scenario

open Scenario in
theorem buffers_consumed_once_associated :
    ∃ d s' status d' call, transmitting.transmitBuffer driver d = some (s', status) ∧
      s'.calls = [call] ∧ call.GivesUp d' ∧ d'.data = 0 := by
  obtain ⟨d₀, hd₀⟩ : ∃ d₀, d₀ = TxBufferDescriptor.mk (List.replicate 1586 0) 0 1586 1586 :=
    ⟨_, rfl⟩
  have hdriver : driver.allocateTxBuffer
      (ethernetMaxFrameSize + txBufferHeadroom + txBufferTailroom) = .ok d₀ := by
    rw [hd₀]
    rfl
  have hallocated : (transmitting.allocateTxBuffer driver).2 =
      .ok { d₀ with data := 64, size := 1514, currentOffset := 1514 } := by
    rw [Ops.allocateTxBuffer, allocateTxBuffer, hdriver, hd₀]
    rfl
  -- a frame of twenty bytes is put into the buffer
  obtain ⟨s', status, d', call, hs, hcalls, hgives, hdata, -⟩ :=
    (buffers_consumed_once driver driver_sound transmitting).1 d₀ _
      { d₀ with data := 64, size := 1514, currentOffset := 1494 } hdriver
      (by rw [hd₀]; decide) hallocated ⟨rfl, Nat.le_refl _, show 1494 ≤ 1514 by decide, rfl⟩
  exact ⟨_, s', status, d', call, hs, hcalls, hgives, hdata.trans (by rw [hd₀])⟩

end U80211
