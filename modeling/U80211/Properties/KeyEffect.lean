import U80211.Decoder
import U80211.KeyStore
import U80211.Properties.Decoding
import U80211.Properties.Transmit

/-!
# What a step does to the key list

* `installed`, `accepted`, `drawnBy`: what a transition says about an entry
* `stepCall_eq_some`: the steps of a call
* `step_effect`: the five things that a transition can do to the list
-/

namespace U80211

namespace KeyStore

open Memory Decoder

/-! ## Events -/

/-- The packet number in a cipher header. -/
def cipherNumber : Option Cipher → List UInt8 → Nat
  | some .tkip, body => tkipNumber body
  | _, body => ccmpNumber body

/-- `u80211_set_key` puts an entry into the list: its address, and what it was called with. -/
def Call.installs : Call → Option (Nat × Key)
  | .setKeyList key metadata => some (metadata.object, key)
  | _ => none

/-- A packet is accepted: the entry, and the number in the cipher header of the packet. -/
def Call.accepts (device : Device) : Call → Option (Nat × Nat)
  | .receiveCipher packet r keyIndex cipher =>
    match processCipherRx device packet r.header keyIndex r.dataStart r.dataSize cipher with
    | some (some _) =>
      (device.keys.find? fun m =>
        m.index == keyIndex && keyMatchesHeader device.macAddress r.header m).map
          fun k => (k.object, cipherNumber cipher (packet.drop r.dataStart))
    | _ => none
  | _ => none

/-- A packet number is drawn by a call that stands at `next` then. -/
def Call.draws (next : Option Call) : Call → Option Draw
  | .transmitPrepare _ _ _ _ =>
    match next with
    | some (.transmitFrame _ _ _ draw) => draw
    | _ => none
  | _ => none

def installed (t : Transition) : Option (Nat × Key) :=
  match t.action with
  | .advance i _ => t.before.calls[i]?.bind Call.installs
  | _ => none

def accepted (t : Transition) : Option (Nat × Nat) :=
  match t.action with
  | .advance i _ => t.before.calls[i]?.bind (Call.accepts t.before.device)
  | _ => none

/-- The call that draws a packet number, and what it draws. -/
def drawnBy (t : Transition) : Option (Nat × Draw) :=
  match t.action with
  | .advance i _ =>
    (t.before.calls[i]?.bind (Call.draws t.after.calls[i]?)).map fun draw => (i, draw)
  | _ => none

/-- A packet number is drawn: the entry, and the number. -/
def drawn (t : Transition) : Option (Nat × Nat) :=
  (drawnBy t).map fun d => (d.2.entry.object, d.2.number)

/-! ## Effects -/

/-- What a transition does to the key list. -/
inductive Effect (t : Transition) : Prop
  | quiet (hk : t.after.device.keys = t.before.device.keys) (hi : installed t = none)
      (ha : accepted t = none) (hd : drawnBy t = none)
  | install (i : Nat) (key : Key) (metadata : KeyMetadata)
      (hc : t.before.calls[i]? = some (.setKeyList key metadata))
      (hs : t.after.calls = t.before.calls.set i (.returned .success))
      (hk : t.after.device.keys = U80211.setKeyList t.before.device.keys metadata)
      (hi : installed t = some (metadata.object, key)) (ha : accepted t = none)
      (hd : drawnBy t = none)
  | remove (index : UInt8) (peer : MacAddress) (flags : UInt32)
      (hk : t.after.device.keys = U80211.delKeyList t.before.device.keys index peer flags)
      (hi : installed t = none) (ha : accepted t = none) (hd : drawnBy t = none)
  | accept (k : KeyMetadata) (sequence : FixedBytes 6)
      (hnewer : leValue k.rxSequence.toList < leValue sequence.toList)
      (hk : Exchanged t.before.device.keys t.after.device.keys k { k with rxSequence := sequence })
      (hi : installed t = none) (ha : accepted t = some (k.object, leValue sequence.toList))
      (hd : drawnBy t = none)
  | draw (i : Nat) (k : KeyMetadata) (sequence : FixedBytes 6)
      (hnext : k.txSequence.increment = some sequence)
      (hk : Exchanged t.before.device.keys t.after.device.keys k { k with txSequence := sequence })
      (hi : installed t = none) (ha : accepted t = none)
      (hd : drawnBy t = some (i, { entry := k, number := leValue sequence.toList }))

/-! ## Receiving -/

section Receive

variable {device : Device} {packet : List UInt8} {header : HeaderDescription} {keyIndex : UInt8}
  {data dataSize : Nat} {rx : CipherRx}

/-- An entry has taken the number of a packet. -/
structure Takes (device : Device) (packet : List UInt8) (header : HeaderDescription)
    (keyIndex : UInt8) (data : Nat) (cipher : Option Cipher) (keys' : List KeyMetadata)
    (k : KeyMetadata) (sequence : FixedBytes 6) : Prop where
  entry : device.keys.find? (fun m =>
    m.index == keyIndex && keyMatchesHeader device.macAddress header m) = some k
  cipherOf : cipher = some k.cipher
  newer : leValue k.rxSequence.toList < leValue sequence.toList
  number : leValue sequence.toList = cipherNumber cipher (packet.drop data)
  keys : Exchanged device.keys keys' k { k with rxSequence := sequence }

/-- A CCMP packet that is accepted has been taken by one entry. -/
theorem processCcmpRx_takes
    (h : processCcmpRx device packet header keyIndex data dataSize = some (some rx)) :
    ∃ k sequence, Takes device packet header keyIndex data (some .ccmp) rx.1.keys k sequence := by
  unfold processCcmpRx at h
  split at h
  · cases h
  · rw [Option.bind_eq_bind, Option.bind_eq_some_iff] at h
    obtain ⟨bytes, hread, h⟩ := h
    obtain ⟨hle, hbytes⟩ := readBytes_eq_some hread
    have hsame : bytes = ⟨slice packet data 8, length_slice hle⟩ := FixedBytes.ext_iff'.mpr hbytes
    split at h
    · cases h
    · rcases keyUpdateRxSequence_spec device.macAddress device.keys header keyIndex .ccmp
          (ccmpSequence bytes) with
        ⟨k, keys', hfind, htakes, hexchanged, he⟩ | ⟨he, -⟩
      · rw [he, Option.bind_eq_bind, Option.bind_eq_some_iff] at h
        obtain ⟨size, -, h⟩ := h
        cases h
        refine ⟨k, _, hfind, ?_, htakes.newer, ?_, hexchanged⟩
        · rw [htakes.cipher]
        · rw [hsame, leValue_ccmpSequence hle]
          rfl
      · rw [he] at h
        cases h

/-- So has a TKIP packet. -/
theorem processTkipRx_takes
    (h : processTkipRx device packet header keyIndex data dataSize = some (some rx)) :
    ∃ k sequence, Takes device packet header keyIndex data (some .tkip) rx.1.keys k sequence := by
  unfold processTkipRx at h
  split at h
  · cases h
  · split at h
    · cases h
    · split at h
      · cases h
      · rw [Option.bind_eq_bind, Option.bind_eq_some_iff] at h
        obtain ⟨bytes, hread, h⟩ := h
        obtain ⟨hle, hbytes⟩ := readBytes_eq_some hread
        have hsame : bytes = ⟨slice packet data 8, length_slice hle⟩ :=
          FixedBytes.ext_iff'.mpr hbytes
        dsimp only at h
        split at h
        · cases h
        · split at h
          · cases h
          · simp only [Option.bind_eq_bind, Option.bind_eq_some_iff] at h
            obtain ⟨size, -, payload, -, mic, -, r, hr, h⟩ := h
            rcases keyValidateTkipRx_spec device.macAddress device.keys
              { header, keyIndex
                destination := (dataPacketAddresses header).1
                source := (dataPacketAddresses header).2
                priority := 0
                data := payload.toList } (tkipSequence bytes) mic with
              ⟨k, keys', hfind, htakes, hexchanged, he⟩ | ⟨he, -⟩
            · cases he.symm.trans hr
              cases h
              refine ⟨k, _, hfind, ?_, htakes.newer, ?_, hexchanged⟩
              · rw [htakes.cipher]
              · rw [hsame, leValue_tkipSequence hle]
                rfl
            · cases he.symm.trans hr
              cases h

/-- **A packet is accepted only against the entry that its header names**, which takes its
number. -/
theorem processCipherRx_takes {cipher : Option Cipher}
    (h : processCipherRx device packet header keyIndex data dataSize cipher = some (some rx)) :
    ∃ k sequence, Takes device packet header keyIndex data cipher rx.1.keys k sequence := by
  unfold processCipherRx at h
  split at h
  · exact processCcmpRx_takes h
  · exact processTkipRx_takes h
  · cases h

end Receive

/-! ## Transmitting -/

section Transmit

variable {device device' : Device} {header header' : HeaderDescription} {key : UInt8}
  {d d' : TxBufferDescriptor}

/-- An entry has given a number away. -/
structure Gives (device : Device) (header : HeaderDescription) (key : UInt8)
    (d : TxBufferDescriptor) (cipher : Option Cipher) (keys' : List KeyMetadata) (k : KeyMetadata)
    (sequence : FixedBytes 6) : Prop where
  entry : transmitEntry device.macAddress device.keys header key cipher = some k
  number : transmitNumber device.macAddress device.keys header key d cipher = some sequence
  next : k.txSequence.increment = some sequence
  keys : Exchanged device.keys keys' k { k with txSequence := sequence }

/-- The number of a CCMP frame comes from one entry. -/
theorem prepareCcmpTx_gives
    (h : prepareCcmpTx device header key d = some (.ok (device', header', d'))) :
    ∃ k sequence, Gives device header key d (some .ccmp) device'.keys k sequence := by
  unfold prepareCcmpTx at h
  split at h
  · cases h
  · split at h
    · cases h
    · next sequence keys' hk =>
      simp only [Option.bind_eq_bind, Option.bind_eq_some_iff] at h
      obtain ⟨d₁, -, h⟩ := h
      cases h
      obtain ⟨k, hfind, -, -, hnext, hexchanged⟩ := keyNextTxSequence_eq_some hk
      refine ⟨k, sequence, hfind, ?_, hnext, hexchanged⟩
      rw [transmitNumber, hk]
      rfl

/-- So does that of a TKIP frame. -/
theorem prepareTkipTx_gives
    (h : prepareTkipTx device header key d = some (.ok (device', header', d'))) :
    ∃ k sequence, Gives device header key d (some .tkip) device'.keys k sequence := by
  unfold prepareTkipTx at h
  dsimp only at h
  split at h
  · cases h
  · next off d₀ hallocate =>
    simp only [Option.bind_eq_bind, Option.bind_eq_some_iff] at h
    obtain ⟨data, hread, r, hr, h⟩ := h
    split at h
    · cases h
    · next sequence mic keys' =>
      simp only [Option.bind_eq_some_iff] at h
      obtain ⟨d₁, -, d₂, -, h⟩ := h
      cases h
      obtain ⟨k, hfind, -, -, hnext, hexchanged, -⟩ := keyPrepareTkipTx_eq_some hr
      refine ⟨k, sequence, hfind, ?_, hnext, hexchanged⟩
      -- the section reads what the descriptor holds, with the space for the header taken
      have hbuffer : d₀.buffer = d.buffer := by
        unfold TxBufferDescriptor.allocateSpace at hallocate
        split at hallocate
        · cases hallocate
        · cases hallocate
          rfl
      have hcontent : data.toList = d.content := by
        rw [(readBytes_eq_some hread).2, hbuffer]
        rfl
      rw [hcontent] at hr
      have hr' : keyPrepareTkipTx device.macAddress device.keys
          (transmitTkipData header key d.content) = some (some (sequence, mic, keys')) := hr
      rw [transmitNumber, hr']
      rfl

/-- **A packet number is drawn from one entry**, whose counter it becomes. -/
theorem prepareCipherTx_gives {cipher : Option Cipher}
    (h : prepareCipherTx device header key d cipher = some (.ok (device', header', d'))) :
    ∃ k sequence, Gives device header key d cipher device'.keys k sequence := by
  unfold prepareCipherTx at h
  split at h
  · exact prepareCcmpTx_gives h
  · exact prepareTkipTx_gives h
  · cases h

end Transmit

/-! ## Steps of a call -/

/-- What the step of a call does: where it leads from its position, and the state with all but the
position changed. -/
inductive CallStep (s : State) (outcome : Outcome) : Call → Call → State → Prop
  | setKeyRefused {key : Key} {status : Status}
      (h : setKeyAllocate key s.hasSetKey outcome.allocated s.nextObject = .error status) :
      CallStep s outcome (.setKey key) (.returned status) s
  | setKeyAllocated {key : Key} {metadata : KeyMetadata}
      (h : setKeyAllocate key s.hasSetKey outcome.allocated s.nextObject = .ok metadata) :
      CallStep s outcome (.setKey key) (.setKeyDriver key metadata)
        { s with nextObject := s.nextObject + 1 }
  | driverRefused {key : Key} {metadata : KeyMetadata} (h : outcome.status ≠ .success) :
      CallStep s outcome (.setKeyDriver key metadata) (.returned outcome.status) s
  | driverInstalled {key : Key} {metadata : KeyMetadata} (h : outcome.status = .success) :
      CallStep s outcome (.setKeyDriver key metadata) (.setKeyList key metadata)
        { s with hardware := hardwareSet s.hardware key }
  | listed {key : Key} {metadata : KeyMetadata} :
      CallStep s outcome (.setKeyList key metadata) (.returned .success)
        (s.setKeys (U80211.setKeyList s.device.keys metadata))
  | delKeyUnsupported {index : UInt8} {peer : MacAddress} {flags : UInt32}
      (h : s.hasDelKey = false) :
      CallStep s outcome (.delKey index peer flags) (.returned .unsupported) s
  | delKeyRefused {index : UInt8} {peer : MacAddress} {flags : UInt32}
      (h : outcome.status ≠ .success) :
      CallStep s outcome (.delKey index peer flags) (.returned outcome.status) s
  | driverDeleted {index : UInt8} {peer : MacAddress} {flags : UInt32}
      (h : outcome.status = .success) :
      CallStep s outcome (.delKey index peer flags) (.delKeyList index peer flags)
        { s with hardware := hardwareDel s.hardware index peer flags }
  | unlisted {index : UInt8} {peer : MacAddress} {flags : UInt32} :
      CallStep s outcome (.delKeyList index peer flags) (.returned .success)
        (s.setKeys (U80211.delKeyList s.device.keys index peer flags))
  | noKeyIndex {packet : List UInt8} :
      CallStep s outcome (.receive packet) .handled (s.setDevice s.device.counted)
  | keyIndexRead {packet : List UInt8} {r : Deserialized} {keyIndex : UInt8}
      (hr : deserializeHeader packet = some (.ok r))
      (hk : deserializeCipherKeyIndex packet r.dataStart r.dataSize = some (some keyIndex)) :
      CallStep s outcome (.receive packet) (.receiveSelect packet r keyIndex)
        (s.setDevice s.device.counted)
  | rxCipherSelected {packet : List UInt8} {r : Deserialized} {keyIndex : UInt8} :
      CallStep s outcome (.receiveSelect packet r keyIndex)
        (.receiveCipher packet r keyIndex
          (selectCipherByIndex s.device.macAddress s.device.keys r.header keyIndex)) s
  | rejected {packet : List UInt8} {r : Deserialized} {keyIndex : UInt8} {cipher : Option Cipher}
      (h : processCipherRx s.device packet r.header keyIndex r.dataStart r.dataSize cipher =
        some none) :
      CallStep s outcome (.receiveCipher packet r keyIndex cipher) .handled s
  | accepted {packet : List UInt8} {r : Deserialized} {keyIndex : UInt8} {cipher : Option Cipher}
      {rx : CipherRx}
      (h : processCipherRx s.device packet r.header keyIndex r.dataStart r.dataSize cipher =
        some (some rx)) :
      CallStep s outcome (.receiveCipher packet r keyIndex cipher) .handled (s.setDevice rx.1)
  | refused {request : TransmitRequest} {device : Device} {result : TransmitResult}
      (h : transmitConvert s.device request.descriptor = some (device, .error result)) :
      CallStep s outcome (.transmit request) (.consumed result) (s.setDevice device)
  | converted {request : TransmitRequest} {device : Device} {header : HeaderDescription}
      {d : TxBufferDescriptor}
      (h : transmitConvert s.device request.descriptor = some (device, .ok (header, d))) :
      CallStep s outcome (.transmit request) (.transmitSelect header d) (s.setDevice device)
  | noKey {header : HeaderDescription} {d : TxBufferDescriptor}
      (h : selectKey s.device.macAddress s.device.keys header = none) :
      CallStep s outcome (.transmitSelect header d)
        (.transmitFrame header d { key := none, cipher := none } none) s
  | keyTooLarge {header : HeaderDescription} {d : TxBufferDescriptor} {key : UInt8}
      (h : selectKey s.device.macAddress s.device.keys header = some key) (hkey : 3 < key) :
      CallStep s outcome (.transmitSelect header d) (.consumed (.freed d .notPermitted)) s
  | keySelected {header : HeaderDescription} {d : TxBufferDescriptor} {key : UInt8}
      (h : selectKey s.device.macAddress s.device.keys header = some key) (hkey : ¬ 3 < key) :
      CallStep s outcome (.transmitSelect header d) (.transmitCipher header d key) s
  | txCipherSelected {header : HeaderDescription} {d : TxBufferDescriptor} {key : UInt8} :
      CallStep s outcome (.transmitCipher header d key)
        (.transmitPrepare header d key
          (selectCipherByIndex s.device.macAddress s.device.keys header key)) s
  | notPrepared {header : HeaderDescription} {d d' : TxBufferDescriptor} {key : UInt8}
      {cipher : Option Cipher} {status : Status}
      (h : prepareCipherTx s.device header key d cipher = some (.error (status, d'))) :
      CallStep s outcome (.transmitPrepare header d key cipher) (.consumed (.freed d' status)) s
  | prepared {header header' : HeaderDescription} {d d' : TxBufferDescriptor} {key : UInt8}
      {cipher : Option Cipher} {device : Device}
      (h : prepareCipherTx s.device header key d cipher = some (.ok (device, header', d'))) :
      CallStep s outcome (.transmitPrepare header d key cipher)
        (.transmitFrame header' d' { key := some key, cipher }
          (transmitDraw s.device.macAddress s.device.keys header key d cipher))
        (s.setDevice device)
  | framed {header : HeaderDescription} {d : TxBufferDescriptor} {options : TransmitOptions}
      {draw : Option Draw} {device : Device} {result : TransmitResult}
      (h : U80211.transmitFrame s.device header d options = some (device, result)) :
      CallStep s outcome (.transmitFrame header d options draw) (.consumed result)
        (s.setDevice device)

/-- **There are no other steps of a call.** -/
theorem stepCall_eq_some {s s' : State} {i : Nat} {outcome : Outcome} {c : Call}
    (h : stepCall s i outcome c = some s') :
    ∃ c' s₁, CallStep s outcome c c' s₁ ∧ s' = s₁.setCall i c' := by
  cases c with
  | setKey key =>
    rw [stepCall] at h
    split at h
    · next hk => cases h; exact ⟨_, _, .setKeyRefused hk, rfl⟩
    · next hk => cases h; exact ⟨_, _, .setKeyAllocated hk, rfl⟩
  | setKeyDriver key metadata =>
    rw [stepCall] at h
    split at h
    · next hs => cases h; exact ⟨_, _, .driverRefused hs, rfl⟩
    · next hs => cases h; exact ⟨_, _, .driverInstalled (Decidable.not_not.mp hs), rfl⟩
  | setKeyList key metadata => cases h; exact ⟨_, _, .listed, rfl⟩
  | delKey index peer flags =>
    rw [stepCall] at h
    split at h
    · next hd => cases h; exact ⟨_, _, .delKeyUnsupported (Bool.not_eq_true _ ▸ hd), rfl⟩
    · split at h
      · next hs => cases h; exact ⟨_, _, .delKeyRefused hs, rfl⟩
      · next hs => cases h; exact ⟨_, _, .driverDeleted (Decidable.not_not.mp hs), rfl⟩
  | delKeyList index peer flags => cases h; exact ⟨_, _, .unlisted, rfl⟩
  | receive packet =>
    rw [stepCall] at h
    split at h
    · cases h
    · cases h; exact ⟨_, _, .noKeyIndex, rfl⟩
    · next r hr =>
      split at h
      · split at h
        · cases h
        · cases h; exact ⟨_, _, .noKeyIndex, rfl⟩
        · next keyIndex hk => cases h; exact ⟨_, _, .keyIndexRead hr hk, rfl⟩
      · cases h; exact ⟨_, _, .noKeyIndex, rfl⟩
  | receiveSelect packet r keyIndex => cases h; exact ⟨_, _, .rxCipherSelected, rfl⟩
  | receiveCipher packet r keyIndex cipher =>
    rw [stepCall] at h
    split at h
    · cases h
    · next hrx => cases h; exact ⟨_, _, .rejected hrx, rfl⟩
    · next hrx => cases h; exact ⟨_, _, .accepted hrx, rfl⟩
  | transmit request =>
    rw [stepCall] at h
    split at h
    · cases h
    · next hconvert => cases h; exact ⟨_, _, .refused hconvert, rfl⟩
    · next hconvert => cases h; exact ⟨_, _, .converted hconvert, rfl⟩
  | transmitSelect header d =>
    rw [stepCall] at h
    split at h
    · next hk => cases h; exact ⟨_, _, .noKey hk, rfl⟩
    · next hk =>
      split at h
      · next hlarge => cases h; exact ⟨_, _, .keyTooLarge hk hlarge, rfl⟩
      · next hsmall => cases h; exact ⟨_, _, .keySelected hk hsmall, rfl⟩
  | transmitCipher header d key => cases h; exact ⟨_, _, .txCipherSelected, rfl⟩
  | transmitPrepare header d key cipher =>
    rw [stepCall] at h
    split at h
    · cases h
    · next hprepare => cases h; exact ⟨_, _, .notPrepared hprepare, rfl⟩
    · next hprepare => cases h; exact ⟨_, _, .prepared hprepare, rfl⟩
  | transmitFrame header d options draw =>
    rw [stepCall] at h
    split at h
    · cases h
    · next hframe => cases h; exact ⟨_, _, .framed hframe, rfl⟩
  | returned status => cases h
  | handled => cases h
  | consumed result => cases h

/-! ## Steps -/

section Events

variable {s s' : State} {i : Nat} {outcome : Outcome} {c c' : Call}

theorem installed_advance (hc : s.calls[i]? = some c) :
    installed ⟨s, .advance i outcome, s'⟩ = c.installs := by
  simp [installed, hc]

theorem accepted_advance (hc : s.calls[i]? = some c) :
    accepted ⟨s, .advance i outcome, s'⟩ = c.accepts s.device := by
  simp [accepted, hc]

theorem drawnBy_advance (hc : s.calls[i]? = some c) (hc' : s'.calls = s.calls.set i c') :
    drawnBy ⟨s, .advance i outcome, s'⟩ = (c.draws (some c')).map fun draw => (i, draw) := by
  have hlt : i < s.calls.length := (List.getElem?_eq_some_iff.mp hc).1
  have hnext : s'.calls[i]? = some c' := by rw [hc', List.getElem?_set_self hlt]
  simp only [drawnBy, hc, hnext, Option.bind_some]

/-- A step of a call that neither reads nor changes an entry. -/
theorem Effect.of_quiet (hc : s.calls[i]? = some c) (hc' : s'.calls = s.calls.set i c')
    (hk : s'.device.keys = s.device.keys) (hi : c.installs = none)
    (ha : c.accepts s.device = none) (hd : c.draws (some c') = none) :
    Effect ⟨s, .advance i outcome, s'⟩ := by
  refine .quiet hk ?_ ?_ ?_
  · rw [installed_advance hc, hi]
  · rw [accepted_advance hc, ha]
  · rw [drawnBy_advance hc hc', hd]
    rfl

end Events

theorem transmitConvert_keys {device device' : Device} {d : TxBufferDescriptor}
    {r : Except TransmitResult (HeaderDescription × TxBufferDescriptor)}
    (h : transmitConvert device d = some (device', r)) : device'.keys = device.keys := by
  unfold transmitConvert at h
  split at h
  · cases h
  · dsimp only at h
    split at h
    · cases h; rfl
    · split at h
      · cases h; rfl
      · split at h
        · cases h; rfl
        · simp only [Option.bind_eq_bind, Option.bind_eq_some_iff] at h
          obtain ⟨destination, -, source, -, ethertype, -, h⟩ := h
          split at h
          · cases h; rfl
          · simp only [Option.bind_eq_some_iff] at h
            obtain ⟨d₁, -, d₂, -, h⟩ := h
            cases h; rfl

theorem transmitFrame_keys {device device' : Device} {header : HeaderDescription}
    {d : TxBufferDescriptor} {options : TransmitOptions} {result : TransmitResult}
    (h : U80211.transmitFrame device header d options = some (device', result)) :
    device' = device := by
  unfold U80211.transmitFrame at h
  rw [Option.bind_eq_bind, Option.bind_eq_some_iff] at h
  obtain ⟨r, -, h⟩ := h
  split at h <;> cases h <;> rfl

/-- What the step of a call does to the list. -/
theorem stepCall_effect {s s' : State} {i : Nat} {outcome : Outcome} {c : Call}
    (hc : s.calls[i]? = some c) (h : stepCall s i outcome c = some s') :
    Effect ⟨s, .advance i outcome, s'⟩ := by
  obtain ⟨c', s₁, hstep, rfl⟩ := stepCall_eq_some h
  cases hstep with
  | @listed key metadata =>
    refine .install i key metadata hc rfl rfl ?_ ?_ ?_
    · rw [installed_advance hc]
      rfl
    · rw [accepted_advance hc]
      rfl
    · rw [drawnBy_advance hc rfl]
      rfl
  | @unlisted index peer flags =>
    refine .remove index peer flags rfl ?_ ?_ ?_
    · rw [installed_advance hc]
      rfl
    · rw [accepted_advance hc]
      rfl
    · rw [drawnBy_advance hc rfl]
      rfl
  | rejected hrx =>
    refine .of_quiet hc rfl rfl rfl ?_ rfl
    rw [Call.accepts, hrx]
  | accepted hrx =>
    obtain ⟨k, sequence, hentry, -, hnewer, hnumber, hkeys⟩ := processCipherRx_takes hrx
    refine .accept k sequence hnewer hkeys ?_ ?_ ?_
    · rw [installed_advance hc]
      rfl
    · rw [accepted_advance hc, Call.accepts, hrx, hentry, hnumber]
      rfl
    · rw [drawnBy_advance hc rfl]
      rfl
  | refused hconvert => exact .of_quiet hc rfl (transmitConvert_keys hconvert) rfl rfl rfl
  | converted hconvert => exact .of_quiet hc rfl (transmitConvert_keys hconvert) rfl rfl rfl
  | prepared hprepare =>
    obtain ⟨k, sequence, hentry, hnumber, hnext, hkeys⟩ := prepareCipherTx_gives hprepare
    refine .draw i k sequence hnext hkeys ?_ ?_ ?_
    · rw [installed_advance hc]
      rfl
    · rw [accepted_advance hc]
      rfl
    · rw [drawnBy_advance hc rfl, Call.draws, transmitDraw, hentry, hnumber]
      rfl
  | framed hframe =>
    rw [transmitFrame_keys hframe]
    exact .of_quiet hc rfl rfl rfl rfl rfl
  | _ => exact .of_quiet hc rfl rfl rfl rfl rfl

/-- **What a step does to the list.** -/
theorem step_effect {action : Action} {s s' : State} (h : step action s = some s') :
    Effect ⟨s, action, s'⟩ := by
  cases action with
  | invoke entry =>
    cases h
    exact .quiet rfl rfl rfl rfl
  | advance i outcome =>
    rw [step] at h
    split at h
    · cases h
    · next c hc => exact stepCall_effect hc h
  | associate association =>
    cases h
    exact .quiet rfl rfl rfl rfl

end KeyStore

end U80211
