import U80211.Properties.KeyHistory
import U80211.Properties.ReceivePath

/-!
# The positions of the calls

* `Converted`, `Framed`: what the transmit path has made of an Ethernet frame
* `Call.Sound`: what holds at a position, given the packet numbers that the call has drawn
* `Run.positions`: **it holds of every call after every run**
* `Run.step_isSome`: no access outside of a buffer keeps a call from its next step
* `transmitBuffer_alone`, `processPacket_alone`: a call that nothing interrupts does what the
  function does
-/

namespace U80211

namespace KeyStore

open Memory Decoder TxBufferDescriptor

/-! ## Positions -/

/-- The Ethernet header has been converted, and there is room for what is still to come. -/
structure Converted (header : HeaderDescription) (d : TxBufferDescriptor) : Prop where
  header : ∃ ap source destination sequenceControl,
    header = transmitHeader ap source destination sequenceControl
  holds : d.Holds d.content
  headroom : 70 ≤ d.currentOffset
  tailroom : d.data + d.size + txBufferTailroom ≤ d.buffer.length

/-- The cipher header, if any, has been put in front, with the packet number that has been drawn. -/
structure Framed (header : HeaderDescription) (d : TxBufferDescriptor) (options : TransmitOptions)
    (draw : Option Draw) : Prop where
  header : header.IsData
  holds : d.Holds d.content
  headroom : 24 ≤ d.currentOffset
  plain : draw = none → options = { key := none, cipher := none }
  number : ∀ e, draw = some e → (options.cipher = some .ccmp ∨ options.cipher = some .tkip) ∧
    cipherNumber options.cipher d.content = e.number

/-- What holds of a call at a position, given what it has drawn so far. -/
def Call.Sound (log : List Draw) : Call → Prop
  | .receiveSelect packet r _ => deserializeHeader packet = some (.ok r)
  | .receiveCipher packet r _ _ => deserializeHeader packet = some (.ok r)
  | .transmit _ => log = []
  | .transmitSelect header d => log = [] ∧ Converted header d
  | .transmitCipher header d _ => log = [] ∧ Converted header d
  | .transmitPrepare header d _ _ => log = [] ∧ Converted header d
  | .transmitFrame header d options draw => log = draw.toList ∧ Framed header d options draw
  | _ => True

/-! ## Packet numbers in cipher headers -/

/-- The receiver finds the packet number of the sender in the CCMP header. -/
theorem ccmpNumber_ccmpHeader (key : UInt8) (sequence : FixedBytes 6) (rest : List UInt8) :
    ccmpNumber (ccmpHeader key sequence ++ rest) = leValue sequence.toList := by
  obtain ⟨b₀, b₁, b₂, b₃, b₄, b₅, hb⟩ := FixedBytes.eq_six sequence
  simp [ccmpNumber, ccmpHeader, hb]

/-- The receiver finds the packet number of the sender in the TKIP header. -/
theorem tkipNumber_tkipHeader (key : UInt8) (sequence : FixedBytes 6) (rest : List UInt8) :
    tkipNumber (tkipHeader key sequence ++ rest) = leValue sequence.toList := by
  obtain ⟨b₀, b₁, b₂, b₃, b₄, b₅, hb⟩ := FixedBytes.eq_six sequence
  simp [tkipNumber, tkipHeader, hb]

/-! ## Transmitting -/

section Transmit

variable {device : Device} {header : HeaderDescription} {d : TxBufferDescriptor} {key : UInt8}

/-- The descriptor of a request carries the frame of its caller. -/
theorem TransmitRequest.carries (request : TransmitRequest) :
    request.descriptor.Carries request.descriptor.content where
  headroom := request.headroom
  tailroom := request.tailroom
  holds := ⟨request.offset, Nat.le_trans (Nat.le_add_right _ _) request.tailroom, rfl⟩

/-- The frame is refused, or its Ethernet header is converted. -/
theorem transmitConvert_cases (device : Device) (request : TransmitRequest) :
    (∃ device' result,
      transmitConvert device request.descriptor = some (device', .error result)) ∨
    ∃ device' header d, transmitConvert device request.descriptor =
      some (device', .ok (header, d)) ∧ Converted header d := by
  have hcarries := request.carries
  cases hap : device.association.ap with
  | none =>
    rw [transmitConvert, if_neg (Nat.not_lt.mpr request.headroom)]
    simp only [hap]
    exact Or.inl ⟨_, _, rfl⟩
  | some ap =>
    by_cases hs : device.association.state = .associated
    · by_cases hlen : ethernetHeaderSize ≤ request.descriptor.content.length
      · obtain ⟨destination, source, ethertype, payload, hf⟩ := exists_ethernetHeader hlen
        obtain ⟨d', he, hholds, -, hroom, htail, -⟩ := transmitConvert_spec hs hap hcarries hf
        refine Or.inr ⟨_, _, d', he, ⟨_, _, _, _, rfl⟩, ?_, hroom, htail⟩
        rw [hholds.content]
        exact hholds
      · obtain ⟨d', he⟩ := transmitConvert_of_short hs hap hcarries (Nat.lt_of_not_le hlen)
        exact Or.inl ⟨_, _, he⟩
    · rw [transmitConvert, if_neg (Nat.not_lt.mpr request.headroom)]
      simp only [hap, ne_eq, hs, not_false_eq_true, if_true]
      exact Or.inl ⟨_, _, rfl⟩

/-- The preparation for TKIP reads no byte that is not there. -/
theorem keyPrepareTkipTx_isSome (own : MacAddress) (keys : List KeyMetadata) (data : TkipData) :
    ∃ r, keyPrepareTkipTx own keys data = some r := by
  unfold keyPrepareTkipTx
  split
  · exact ⟨_, rfl⟩
  · next i _ =>
    dsimp only
    split
    · exact ⟨_, rfl⟩
    · next hok =>
      rw [not_or, Decidable.not_not, Decidable.not_not] at hok
      split
      · exact ⟨_, rfl⟩
      · have hread : tkipTxMicKeyOffset + 8 ≤ keys[i].key.length := by
          rw [hok.2]
          decide
        exact ⟨_, by rw [readBytes_of_le hread, Option.bind_eq_bind, Option.bind_some]⟩

/-- What `prepare_ccmp_tx` and `prepare_tkip_tx` do to a converted frame. -/
inductive Prepared (device : Device) (header : HeaderDescription) (key : UInt8)
    (d : TxBufferDescriptor) (cipher : Option Cipher) (r : CipherTx) : Prop
  | refused (d' : TxBufferDescriptor) (status : Status) (hr : r = .error (status, d'))
      (hstatus : cipher = some .ccmp ∨ cipher = some .tkip → status = .notPermitted)
  | sent (device' : Device) (d' : TxBufferDescriptor) (draw : Draw)
      (hr : r = .ok (device', header.protect, d'))
      (hdraw : transmitDraw device.macAddress device.keys header key d cipher = some draw)
      (hframed : Framed header.protect d' { key := some key, cipher } (some draw))

/-- What a drawn number says about the cipher. -/
theorem Gives.draw {cipher : Option Cipher} {keys' : List KeyMetadata} {k : KeyMetadata}
    {sequence : FixedBytes 6} (h : Gives device header key d cipher keys' k sequence) :
    transmitDraw device.macAddress device.keys header key d cipher =
      some { entry := k, number := leValue sequence.toList } := by
  rw [transmitDraw, h.entry, h.number]
  rfl

theorem Converted.protect_isData (h : Converted header d) : header.protect.IsData := by
  obtain ⟨_, _, _, _, rfl⟩ := h.header
  exact isToDs_protect_transmitHeader.toIsData

theorem Converted.isData (h : Converted header d) : header.IsData := by
  obtain ⟨_, _, _, _, rfl⟩ := h.header
  exact isToDs_transmitHeader.toIsData

/-- A frame from which the drawn number can be read again is one that may be sent. -/
theorem Converted.sent (h : Converted header d) {cipher : Option Cipher} {device' : Device}
    {d' : TxBufferDescriptor} {k : KeyMetadata} {sequence sequence' : FixedBytes 6}
    {content : List UInt8} (hgives : Gives device header key d cipher device'.keys k sequence')
    (hnumber : transmitNumber device.macAddress device.keys header key d cipher = some sequence)
    (hcipher : cipher = some .ccmp ∨ cipher = some .tkip) (hholds : d'.Holds content)
    (hroom : 24 ≤ d'.currentOffset)
    (hread : cipherNumber cipher content = leValue sequence.toList) :
    Prepared device header key d cipher (.ok (device', header.protect, d')) := by
  cases hgives.number.symm.trans hnumber
  refine .sent device' d' _ rfl hgives.draw ⟨h.protect_isData, ?_, hroom, ?_, ?_⟩
  · rw [hholds.content]
    exact hholds
  · intro hnone
    cases hnone
  · intro e hsome
    cases hsome
    rw [hholds.content]
    exact ⟨hcipher, hread⟩

/-- What `prepare_ccmp_tx` makes of a converted frame. -/
theorem prepareCcmpTx_prepared (h : Converted header d) :
    ∃ r, prepareCcmpTx device header key d = some r ∧
      Prepared device header key d (some .ccmp) r := by
  have hroom := h.headroom
  cases hk : keyNextTxSequence device.macAddress device.keys header key .ccmp with
  | none =>
    refine ⟨_, prepareCcmpTx_of_none hk ?_, .refused _ _ rfl fun _ => rfl⟩
    rw [ccmpHeaderSize]
    omega
  | some r =>
    obtain ⟨sequence, keys'⟩ := r
    obtain ⟨d', he, hh, hb⟩ := prepareCcmpTx_spec hk h.holds
      (show ccmpHeaderSize ≤ d.currentOffset by rw [ccmpHeaderSize]; omega)
    obtain ⟨k, sequence', hgives⟩ := prepareCcmpTx_gives he
    refine ⟨_, he, h.sent hgives ?_ (Or.inl rfl) hh ?_ (ccmpNumber_ccmpHeader key sequence _)⟩
    · rw [transmitNumber, hk]
      rfl
    · rw [hb.currentOffset]
      omega

/-- What `prepare_tkip_tx` makes of a converted frame. -/
theorem prepareTkipTx_prepared (h : Converted header d) :
    ∃ r, prepareTkipTx device header key d = some r ∧
      Prepared device header key d (some .tkip) r := by
  have hroom := h.headroom
  have hn : tkipHeaderSize ≤ d.currentOffset := by
    rw [tkipHeaderSize]
    omega
  obtain ⟨r, hk⟩ := keyPrepareTkipTx_isSome device.macAddress device.keys
    (transmitTkipData header key d.content)
  cases r with
  | none => exact ⟨_, prepareTkipTx_of_none hk h.holds hn, .refused _ _ rfl fun _ => rfl⟩
  | some r =>
    obtain ⟨sequence, mic, keys'⟩ := r
    obtain ⟨d', he, hh, -, hoffset, -⟩ := prepareTkipTx_spec hk h.holds hn h.tailroom
    obtain ⟨k, sequence', hgives⟩ := prepareTkipTx_gives he
    rw [List.append_assoc] at hh
    refine ⟨_, he, h.sent hgives ?_ (Or.inr rfl) hh ?_ (tkipNumber_tkipHeader key sequence _)⟩
    · rw [transmitNumber, hk]
      rfl
    · rw [hoffset]
      omega

/-- **A converted frame is refused, or sent with the number that has been drawn for it.** -/
theorem prepareCipherTx_prepared (device : Device) (key : UInt8) (h : Converted header d)
    (cipher : Option Cipher) :
    ∃ r, prepareCipherTx device header key d cipher = some r ∧
      Prepared device header key d cipher r := by
  unfold prepareCipherTx
  split
  · exact prepareCcmpTx_prepared h
  · exact prepareTkipTx_prepared h
  · next hccmp htkip =>
    refine ⟨_, rfl, .refused _ _ rfl ?_⟩
    rintro (hc | hc)
    · exact absurd hc hccmp
    · exact absurd hc htkip

end Transmit

/-! ## Steps -/

section Steps

variable {s s' : State} {i : Nat} {outcome : Outcome} {c : Call} {log : List Draw}

/-- Where a step of a call leads. -/
structure SoundStep (s s' : State) (i : Nat) (log : List Draw) (c c' : Call) : Prop where
  calls : s'.calls = s.calls.set i c'
  sound : c'.Sound (log ++ (c.draws (some c')).toList)

/-- **A step of a call leads from a sound position to a sound one.** -/
theorem stepCall_sound (hc : c.Sound log) (h : stepCall s i outcome c = some s') :
    ∃ c', SoundStep s s' i log c c' := by
  obtain ⟨c', s₁, hstep, rfl⟩ := stepCall_eq_some h
  refine ⟨c', ?_⟩
  cases hstep with
  | keyIndexRead hr => exact ⟨rfl, hr⟩
  | rxCipherSelected => exact ⟨rfl, hc⟩
  | converted hconvert =>
    rcases transmitConvert_cases s.device _ with ⟨_, _, he⟩ | ⟨_, _, _, he, hconverted⟩
    · cases hconvert.symm.trans he
    · cases hconvert.symm.trans he
      refine ⟨rfl, ?_, hconverted⟩
      rw [show log = [] from hc]
      rfl
  | noKey =>
    obtain ⟨hlog, hconverted⟩ := hc
    have hroom := hconverted.headroom
    refine ⟨rfl, ?_, hconverted.isData, hconverted.holds, by omega, fun _ => rfl, ?_⟩
    · rw [hlog]
      rfl
    · intro e hsome
      cases hsome
  | keySelected =>
    refine ⟨rfl, ?_, hc.2⟩
    rw [hc.1]
    rfl
  | txCipherSelected =>
    refine ⟨rfl, ?_, hc.2⟩
    rw [hc.1]
    rfl
  | @prepared header header' d d' key cipher device hprepare =>
    obtain ⟨hlog, hconverted⟩ := hc
    obtain ⟨r, he, hprepared⟩ := prepareCipherTx_prepared s.device key hconverted cipher
    cases hprepare.symm.trans he
    cases hprepared with
    | refused _ _ hr _ => cases hr
    | sent _ _ draw hr hdraw hframed =>
      cases hr
      refine ⟨rfl, ?_, ?_⟩
      · rw [hlog]
        rfl
      · rw [hdraw]
        exact hframed
  | _ => exact ⟨rfl, trivial⟩

/-- The call has nothing left to do. -/
def Call.finished : Call → Bool
  | .returned _ => true
  | .handled => true
  | .consumed _ => true
  | _ => false

/-- **No access outside of a buffer or of a packet keeps a call from its next step.** -/
theorem stepCall_isSome (s : State) (i : Nat) (outcome : Outcome) (hc : c.Sound log)
    (hf : c.finished = false) : ∃ s', stepCall s i outcome c = some s' := by
  cases c with
  | setKey key =>
    rw [stepCall]
    split <;> exact ⟨_, rfl⟩
  | setKeyDriver key metadata =>
    rw [stepCall]
    split <;> exact ⟨_, rfl⟩
  | setKeyList key metadata => exact ⟨_, rfl⟩
  | delKey index peer flags =>
    rw [stepCall]
    split
    · exact ⟨_, rfl⟩
    · split <;> exact ⟨_, rfl⟩
  | delKeyList index peer flags => exact ⟨_, rfl⟩
  | receive packet =>
    obtain ⟨r, hr, hin⟩ := deserializeHeader_spec packet
    rw [stepCall, hr]
    cases r with
    | error status => exact ⟨_, rfl⟩
    | ok r =>
      obtain ⟨keyIndex, hk⟩ := deserializeCipherKeyIndex_isSome (Nat.le_of_eq (hin r rfl).size)
      dsimp only
      split
      · rw [hk]
        cases keyIndex <;> exact ⟨_, rfl⟩
      · exact ⟨_, rfl⟩
  | receiveSelect packet r keyIndex => exact ⟨_, rfl⟩
  | receiveCipher packet r keyIndex cipher =>
    have hin := deserializeHeader_within (show deserializeHeader packet = some (.ok r) from hc)
    obtain ⟨rx, hrx, -⟩ := @processCipherRx_spec s.device packet r.header keyIndex r.dataStart
      r.dataSize (Nat.le_of_eq hin.size) cipher
    rw [stepCall, hrx]
    cases rx <;> exact ⟨_, rfl⟩
  | transmit request =>
    rcases transmitConvert_cases s.device request with ⟨_, _, he⟩ | ⟨_, _, _, he, -⟩ <;>
      rw [stepCall, he] <;> exact ⟨_, rfl⟩
  | transmitSelect header d =>
    rw [stepCall]
    split
    · exact ⟨_, rfl⟩
    · split <;> exact ⟨_, rfl⟩
  | transmitCipher header d key => exact ⟨_, rfl⟩
  | transmitPrepare header d key cipher =>
    obtain ⟨r, he, -⟩ := prepareCipherTx_prepared s.device key hc.2 cipher
    rw [stepCall, he]
    rcases r with ⟨_, _⟩ | ⟨_, _, _⟩ <;> exact ⟨_, rfl⟩
  | transmitFrame header d options draw =>
    obtain ⟨d', he, -⟩ :=
      transmitFrame_spec s.device options hc.2.header hc.2.holds hc.2.headroom
    rw [stepCall, he]
    exact ⟨_, rfl⟩
  | returned status => cases hf
  | handled => cases hf
  | consumed result => cases hf

end Steps

/-! ## Runs -/

/-- The packet numbers that each call has drawn. -/
def callDraws (τ : List Transition) : List (Nat × Draw) := τ.filterMap drawnBy

/-- All calls are at sound positions after a run. -/
structure Positions (τ : List Transition) (s : State) : Prop where
  sound : ∀ i (c : Call), s.calls[i]? = some c → c.Sound (Log.of (callDraws τ) i)
  started : ∀ e ∈ callDraws τ, e.1 < s.calls.length

section Runs

variable {τ : List Transition} {s s' : State} {action : Action}

theorem callDraws_concat (t : Transition) :
    callDraws (τ ++ [t]) = callDraws τ ++ (drawnBy t).toList := by
  rw [callDraws, List.filterMap_append]
  cases h : drawnBy t <;> simp [callDraws, h]

/-- A call that has not been started has drawn nothing. -/
theorem Positions.of_ge (h : Positions τ s) {i : Nat} (hi : s.calls.length ≤ i) :
    Log.of (callDraws τ) i = [] :=
  Log.of_eq_nil fun _ hin => absurd (h.started _ hin) (Nat.not_lt.mpr hi)

/-- A new call has drawn nothing. -/
theorem Positions.invoke (h : Positions τ s) (entry : Entry)
    (hs : s'.calls = s.calls ++ [entry.start]) :
    Positions (τ ++ [⟨s, .invoke entry, s'⟩]) s' := by
  have hdraws : callDraws (τ ++ [⟨s, .invoke entry, s'⟩]) = callDraws τ := by
    rw [callDraws_concat]
    exact List.append_nil _
  refine ⟨?_, ?_⟩
  · intro i c hc
    rw [hdraws]
    rw [hs, List.getElem?_append] at hc
    split at hc
    · exact h.sound i c hc
    · next hge =>
      rw [h.of_ge (Nat.le_of_not_lt hge), List.mem_singleton.mp (List.mem_of_getElem? hc)]
      cases entry with
      | transmitBuffer request => exact rfl
      | _ => exact trivial
  · intro e he
    rw [hdraws] at he
    rw [hs, List.length_append]
    exact Nat.lt_add_right _ (h.started e he)

/-- A call that goes on stands at a sound position again. -/
theorem Positions.advance (h : Positions τ s) {i : Nat} {outcome : Outcome} {c : Call}
    (hc : s.calls[i]? = some c) (hstep : stepCall s i outcome c = some s') :
    Positions (τ ++ [⟨s, .advance i outcome, s'⟩]) s' := by
  obtain ⟨c', hcalls, hsound⟩ := stepCall_sound (h.sound i c hc) hstep
  have hlt : i < s.calls.length := (List.getElem?_eq_some_iff.mp hc).1
  have hdraws := callDraws_concat (τ := τ) ⟨s, .advance i outcome, s'⟩
  rw [drawnBy_advance hc hcalls] at hdraws
  refine ⟨?_, ?_⟩
  · intro j c₁ hc₁
    rw [hcalls, List.getElem?_set] at hc₁
    rw [hdraws, Log.of_append]
    split at hc₁
    · next hij =>
      subst hij
      cases hc₁
      cases hdraw : c.draws (some c') with
      | none =>
        rw [hdraw] at hsound
        exact hsound
      | some e =>
        rw [hdraw] at hsound
        simpa [Log.of] using hsound
    · next hij =>
      have hnone : Log.of ((c.draws (some c')).map fun e => (i, e)).toList j = [] := by
        refine Log.of_eq_nil ?_
        intro e hin
        obtain ⟨e', -, he⟩ := Option.map_eq_some_iff.mp (Option.mem_toList.mp hin)
        exact hij (Prod.mk.inj he).1
      rw [hnone, List.append_nil]
      exact h.sound j c₁ hc₁
  · intro e he
    rw [hcalls, List.length_set]
    rw [hdraws, List.mem_append] at he
    rcases he with he | he
    · exact h.started e he
    · obtain ⟨e', -, rfl⟩ := Option.map_eq_some_iff.mp (Option.mem_toList.mp he)
      exact hlt

/-- Every step keeps the positions sound. -/
theorem Positions.step (h : Positions τ s) (hstep : step action s = some s') :
    Positions (τ ++ [⟨s, action, s'⟩]) s' := by
  cases action with
  | invoke entry =>
    cases hstep
    exact h.invoke entry rfl
  | advance i outcome =>
    rw [KeyStore.step] at hstep
    split at hstep
    · cases hstep
    · next c hc => exact h.advance hc hstep
  | associate association =>
    cases hstep
    refine ⟨?_, ?_⟩ <;> rw [callDraws_concat, show drawnBy _ = none from rfl, Option.toList_none,
      List.append_nil]
    · exact h.sound
    · exact h.started

variable {own : MacAddress} {hasSetKey hasDelKey : Bool}

/-- **Every call is at a sound position, after every run.** -/
theorem Run.positions (h : Run own hasSetKey hasDelKey τ s) : Positions τ s := by
  refine Lts.Run.history (P := Positions) ⟨?_, ?_⟩ (fun _ _ _ _ _ hp hs => hp.step hs) h
  · intro i c hc
    cases hc
  · intro e he
    cases he

/-- **A call that has not finished can always go on**, whatever the other calls have done. -/
theorem Run.step_isSome (h : Run own hasSetKey hasDelKey τ s) {i : Nat} {c : Call}
    (hc : s.calls[i]? = some c) (hf : c.finished = false) (outcome : Outcome) :
    ∃ s', KeyStore.step (.advance i outcome) s = some s' := by
  rw [KeyStore.step, hc]
  exact stepCall_isSome s i outcome (h.positions.sound i c hc) hf

end Runs

/-! ## Calls that nothing interrupts -/

section Alone

variable {s s' s'' : State} {i : Nat} {outcome : Outcome}

/-- Call `i` takes some steps on its own. -/
def Alone (i : Nat) (outcome : Outcome) (s s' : State) : Prop :=
  ∃ n, Lts.exec step (List.replicate n (.advance i outcome)) s = some s'

theorem Alone.refl : Alone i outcome s s := ⟨0, rfl⟩

/-- One step of the call, and then the others. -/
theorem Alone.head {c : Call} (hc : s.calls[i]? = some c)
    (hs : stepCall s i outcome c = some s') (h : Alone i outcome s' s'') :
    Alone i outcome s s'' := by
  obtain ⟨n, hn⟩ := h
  refine ⟨n + 1, ?_⟩
  rw [List.replicate_succ, Lts.exec, step, hc]
  dsimp only
  rw [hs]
  exact hn

theorem getElem?_setCall {c : Call} (hc : s.calls[i]? = some c) (c' : Call) :
    (s.setCall i c').calls[i]? = some c' := by
  rw [State.setCall_calls, List.getElem?_set_self (List.getElem?_eq_some_iff.mp hc).1]

variable (outcome) {device : Device} {header : HeaderDescription} {d : TxBufferDescriptor}
  {result : TransmitResult}

/-- The last step of a transmission is `transmitFrame`. -/
theorem transmitFrame_alone {options : TransmitOptions} {draw : Option Draw}
    (hc : s.calls[i]? = some (.transmitFrame header d options draw))
    (h : U80211.transmitFrame s.device header d options = some (device, result)) :
    ∃ s', Alone i outcome s s' ∧ s'.device = device ∧ s'.calls[i]? = some (.consumed result) := by
  refine ⟨_, .head hc ?_ .refl, ?_, getElem?_setCall (s := s.setDevice device) hc _⟩
  · rw [stepCall, h]
  · rfl

section Prepare

variable {key : UInt8} {cipher : Option Cipher} {d' : TxBufferDescriptor}

/-- The preparation fails, and the frame is freed. -/
theorem transmitPrepare_alone_error {status : Status}
    (hc : s.calls[i]? = some (.transmitPrepare header d key cipher))
    (hr : prepareCipherTx s.device header key d cipher = some (.error (status, d'))) :
    ∃ s', Alone i outcome s s' ∧ s'.device = s.device ∧
      s'.calls[i]? = some (.consumed (.freed d' status)) := by
  refine ⟨_, .head hc ?_ .refl, ?_, getElem?_setCall hc _⟩
  · rw [stepCall, hr]
  · rfl

/-- The preparation succeeds, and the frame is handed over. -/
theorem transmitPrepare_alone_ok {device₁ : Device} {header' : HeaderDescription}
    (hc : s.calls[i]? = some (.transmitPrepare header d key cipher))
    (hr : prepareCipherTx s.device header key d cipher = some (.ok (device₁, header', d')))
    (h : U80211.transmitFrame device₁ header' d' { key := some key, cipher } =
      some (device, result)) :
    ∃ s', Alone i outcome s s' ∧ s'.device = device ∧ s'.calls[i]? = some (.consumed result) := by
  have hc' := getElem?_setCall (s := s.setDevice device₁) hc
    (.transmitFrame header' d' { key := some key, cipher }
      (transmitDraw s.device.macAddress s.device.keys header key d cipher))
  obtain ⟨s', halone, hs'⟩ := transmitFrame_alone outcome hc' h
  refine ⟨s', .head hc ?_ halone, hs'⟩
  rw [stepCall, hr]

end Prepare

/-- The three sections of a transmission, one after another, are `transmitWithKey`. -/
theorem transmitWithKey_alone (hc : s.calls[i]? = some (.transmitSelect header d))
    (h : transmitWithKey s.device header d = some (device, result)) :
    ∃ s', Alone i outcome s s' ∧ s'.device = device ∧ s'.calls[i]? = some (.consumed result) := by
  unfold transmitWithKey at h
  split at h
  · next hk =>
    have hc' := getElem?_setCall hc
      (.transmitFrame header d { key := none, cipher := none } none)
    obtain ⟨s', halone, hs'⟩ := transmitFrame_alone outcome hc' h
    refine ⟨s', .head hc ?_ halone, hs'⟩
    rw [stepCall, hk]
  · next key hk =>
    split at h
    · next hlarge =>
      cases h
      refine ⟨_, .head hc ?_ .refl, ?_, getElem?_setCall hc _⟩
      · rw [stepCall, hk]
        exact if_pos hlarge
      · rfl
    · next hsmall =>
      have hs₁ : stepCall s i outcome (.transmitSelect header d) =
          some (s.setCall i (.transmitCipher header d key)) := by
        rw [stepCall, hk]
        exact if_neg hsmall
      have hc₁ := getElem?_setCall hc (.transmitCipher header d key)
      have hc₂ := getElem?_setCall hc₁ (.transmitPrepare header d key
        (selectCipherByIndex s.device.macAddress s.device.keys header key))
      rw [Option.bind_eq_bind, Option.bind_eq_some_iff] at h
      obtain ⟨r, hr, h⟩ := h
      split at h
      · cases h
        obtain ⟨s', halone, hs'⟩ := transmitPrepare_alone_error outcome hc₂ hr
        exact ⟨s', .head hc hs₁ (.head hc₁ rfl halone), hs'⟩
      · obtain ⟨s', halone, hs'⟩ := transmitPrepare_alone_ok outcome hc₂ hr h
        exact ⟨s', .head hc hs₁ (.head hc₁ rfl halone), hs'⟩

/-- **`u80211_transmit_buffer` is what its steps do** when nothing comes between them. -/
theorem transmitBuffer_alone {request : TransmitRequest}
    (hc : s.calls[i]? = some (.transmit request))
    (h : transmitBuffer s.device request.descriptor = some (device, result)) :
    ∃ s', Alone i outcome s s' ∧ s'.device = device ∧ s'.calls[i]? = some (.consumed result) := by
  rw [transmitBuffer, Option.bind_eq_bind, Option.bind_eq_some_iff] at h
  obtain ⟨⟨device₁, r⟩, hconvert, h⟩ := h
  cases r with
  | error result₁ =>
    cases h
    refine ⟨_, .head hc ?_ .refl, ?_, getElem?_setCall (s := s.setDevice device) hc _⟩
    · rw [stepCall, hconvert]
    · rfl
  | ok r =>
    obtain ⟨header, d⟩ := r
    have hc₁ := getElem?_setCall (s := s.setDevice device₁) hc (.transmitSelect header d)
    obtain ⟨s', halone, hs'⟩ := transmitWithKey_alone outcome hc₁ h
    refine ⟨s', .head hc ?_ halone, hs'⟩
    rw [stepCall, hconvert]

variable {packet : List UInt8}

/-- The last section of a reception is `processCipherRx`. -/
theorem receiveCipher_alone {r : Deserialized} {keyIndex : UInt8} {cipher : Option Cipher}
    {o : Option CipherRx} (hc : s.calls[i]? = some (.receiveCipher packet r keyIndex cipher))
    (h : processCipherRx s.device packet r.header keyIndex r.dataStart r.dataSize cipher =
      some o) :
    ∃ s', Alone i outcome s s' ∧ s'.calls[i]? = some .handled ∧
      s'.device = (o.map (·.1)).getD s.device := by
  cases o with
  | none =>
    refine ⟨_, .head hc ?_ .refl, getElem?_setCall hc _, ?_⟩
    · rw [stepCall, h]
    · rfl
  | some rx =>
    refine ⟨_, .head hc ?_ .refl, getElem?_setCall (s := s.setDevice rx.1) hc _, ?_⟩
    · rw [stepCall, h]
    · rfl

/-- **The protection of a packet is what the steps of its call do** when nothing comes between
them. -/
theorem processProtection_alone {r : Deserialized} {o : Option CipherRx}
    (hc : s.calls[i]? = some (.receive packet)) (hr : deserializeHeader packet = some (.ok r))
    (h : processProtection s.device.counted packet r.header r.dataStart r.dataSize = some o) :
    ∃ s', Alone i outcome s s' ∧ s'.calls[i]? = some .handled ∧
      s'.device = (o.map (·.1)).getD s.device.counted := by
  have hcounted {c : Call} := getElem?_setCall (s := s.setDevice s.device.counted) hc c
  unfold processProtection at h
  split at h
  · next hflag =>
    rw [Option.bind_eq_bind, Option.bind_eq_some_iff] at h
    obtain ⟨keyIndex?, hindex, h⟩ := h
    split at h
    · cases h
      refine ⟨_, .head hc ?_ .refl, hcounted, ?_⟩
      · simp only [stepCall, hr, hflag, if_true, hindex]
        rfl
      · rfl
    · next keyIndex =>
      have hs₁ : stepCall s i outcome (.receive packet) =
          some ((s.setDevice s.device.counted).setCall i (.receiveSelect packet r keyIndex)) := by
        simp only [stepCall, hr, hflag, if_true, hindex]
        rfl
      have hc₁ := hcounted (c := .receiveSelect packet r keyIndex)
      have hc₂ := getElem?_setCall hc₁ (.receiveCipher packet r keyIndex
        (selectCipherByIndex s.device.macAddress s.device.keys r.header keyIndex))
      obtain ⟨s', halone, hs'⟩ := receiveCipher_alone outcome hc₂ h
      exact ⟨s', .head hc hs₁ (.head hc₁ rfl halone), hs'⟩
  · next hflag =>
    cases h
    refine ⟨_, .head hc ?_ .refl, hcounted, ?_⟩
    · simp only [stepCall, hr, hflag]
      rfl
    · rfl

/-- The management handlers leave the keys alone. -/
theorem runPlan_keys (device : Device) (header : HeaderDescription) (plan : ManagementPlan) :
    (runPlan device header plan).1.keys = device.keys := by
  unfold runPlan Device.applySection
  split
  · rfl
  · split
    · rfl
    · dsimp only
      split <;> rfl
  · dsimp only
    split <;> rfl
  · rfl

/-- **`u80211_process_packet` leaves the keys as the steps of its call do** when nothing comes
between them. -/
theorem processPacket_alone {effects : List ReceiveEffect}
    (hc : s.calls[i]? = some (.receive packet))
    (h : processPacket s.device packet = some (device, effects)) :
    ∃ s', Alone i outcome s s' ∧ s'.calls[i]? = some .handled ∧ s'.device.keys = device.keys := by
  obtain ⟨device', effects', h', hreceived⟩ := processPacket_received s.device packet
  cases h.symm.trans h'
  -- once the cipher header has been removed the keys are left alone
  have haccepted : ∀ {header : HeaderDescription} {rx : CipherRx},
      Accepted s.device packet header rx → rx.1.keys = device.keys →
      ∃ s', Alone i outcome s s' ∧ s'.calls[i]? = some .handled ∧
        s'.device.keys = device.keys := by
    intro header rx ha hkeys
    obtain ⟨r, hr, rfl, -, hp⟩ := ha.read
    obtain ⟨s', halone, hhandled, hdevice⟩ := processProtection_alone outcome hc hr hp
    refine ⟨s', halone, hhandled, ?_⟩
    rw [hdevice]
    exact hkeys
  cases hreceived with
  | malformed hr =>
    refine ⟨_, .head hc ?_ .refl,
      getElem?_setCall (s := s.setDevice s.device.counted) hc _, ?_⟩
    · rw [stepCall, hr]
      rfl
    · rfl
  | rejected hr hp =>
    obtain ⟨s', halone, hhandled, hdevice⟩ := processProtection_alone outcome hc hr hp
    refine ⟨s', halone, hhandled, ?_⟩
    rw [hdevice]
    rfl
  | management ha => exact haccepted ha (runPlan_keys _ _ _).symm
  | unhandled ha => exact haccepted ha rfl
  | misaddressed ha => exact haccepted ha rfl
  | duplicate ha => exact haccepted ha rfl
  | data ha => exact haccepted ha rfl

end Alone

end KeyStore

end U80211
