import U80211.Lib.Retransmission
import U80211.Properties.Decoding
import U80211.Properties.Foreign
import U80211.Properties.Link

/-!
# Retransmissions

The access point sends a data frame again until it is acknowledged, and marks the copies with the
retry bit.

* `IsCopy`: a packet and the same packet with the retry bit
* `Association.remembered`: the sequence control that the filter compares with
* `Received.of_deliverable`, `step_connected`: what a step of a connected device does to it
* `Run.delivered`: in a run the filter is a receiver that drops retransmissions
* `retransmissions_delivered_once`: **every frame of the access point is delivered exactly once and
  in order**
-/

namespace U80211

open Memory Decoder Retransmission

/-! ## Copies -/

/-- The packet with the retry bit, which is in its second byte. -/
def withRetry (packet : List UInt8) : List UInt8 := packet.modify 1 (· ||| 0x08)

/-- A frame as it is sent for the first time or again. -/
def IsCopy (frame packet : List UInt8) : Prop := packet = frame ∨ packet = withRetry frame

def hasRetry (packet : List UInt8) : Bool :=
  hasFlag (dataHeader packet).frameControl frameControlRetry

def sequenceControl (packet : List UInt8) : UInt16 := (dataHeader packet).sequenceControl

section Copies

variable {packet frame : List UInt8}

/-- The retry bit in the number that the first two bytes are. -/
theorem ofNat_or_retry (b c : UInt8) :
    UInt16.ofNat (b.toNat + 256 * (c ||| 0x08).toNat) =
      UInt16.ofNat (b.toNat + 256 * c.toNat) ||| frameControlRetry := by
  have hb : b.toNat < 2 ^ 8 := b.toNat_lt
  have hor : ∀ n, b.toNat + 256 * n = n <<< 8 ||| b.toNat := by
    intro n
    rw [Nat.shiftLeft_eq, Nat.mul_comm n, ← Nat.two_pow_add_eq_or_of_lt hb, Nat.add_comm]
  have hretry : UInt16.ofNat (8 <<< 8) = frameControlRetry := by decide
  rw [hor, hor, UInt8.toNat_or, show UInt8.toNat 0x08 = 8 from rfl, Nat.shiftLeft_or_distrib,
    Nat.or_assoc, Nat.or_comm (8 <<< 8), ← Nat.or_assoc, UInt16.ofNat_or, hretry]

/-- The retry bit stands in the first two bytes. -/
theorem drop_withRetry {n : Nat} (h : 2 ≤ n) : (withRetry packet).drop n = packet.drop n := by
  obtain ⟨k, rfl⟩ : ∃ k, n = k + 2 := ⟨n - 2, by omega⟩
  unfold withRetry
  match packet with
  | [] => rfl
  | [b] => simp
  | b :: c :: rest => simp

theorem le16At_withRetry_of_le {off : Nat} (h : 2 ≤ off) :
    le16At (withRetry packet) off = le16At packet off := by
  simp [le16At, slice, drop_withRetry h]

theorem addressAt_withRetry {off : Nat} (h : 2 ≤ off) :
    addressAt (withRetry packet) off = addressAt packet off := by
  simp [addressAt, slice, drop_withRetry h]

theorem le16At_withRetry (h : 2 ≤ packet.length) :
    le16At (withRetry packet) 0 = le16At packet 0 ||| frameControlRetry := by
  match packet with
  | [] => simp at h
  | [b] => simp at h
  | b :: c :: rest => simpa [le16At, withRetry, slice, leValue] using ofNat_or_retry b c

@[simp] theorem length_withRetry : (withRetry packet).length = packet.length := by
  simp [withRetry]

theorem or_retry_and {mask : UInt16} (h : frameControlRetry &&& mask = 0) (x : UInt16) :
    (x ||| frameControlRetry) &&& mask = x &&& mask := by
  have hand : (x ||| frameControlRetry) &&& mask = (x &&& mask) ||| (frameControlRetry &&& mask) :=
    UInt16.toBitVec_inj.mp BitVec.and_or_distrib_right
  rw [hand, h, UInt16.or_zero]

/-- The retry bit is none of the other flags. -/
theorem hasFlag_or_retry {mask : UInt16} (h : frameControlRetry &&& mask = 0) (x : UInt16) :
    hasFlag (x ||| frameControlRetry) mask = hasFlag x mask := by
  simp [hasFlag, or_retry_and h]

theorem isFourAddress_or_retry (x : UInt16) :
    Decoder.isFourAddress (x ||| frameControlRetry) = Decoder.isFourAddress x := by
  have hto : frameControlRetry &&& frameControlToDs = 0 := by decide
  have hfrom : frameControlRetry &&& frameControlFromDs = 0 := by decide
  simp [Decoder.isFourAddress, hasFlag_or_retry hto, hasFlag_or_retry hfrom]

theorem addresses_or_retry (header : HeaderDescription) :
    addresses { header with frameControl := header.frameControl ||| frameControlRetry } =
      addresses header := by
  have hto : frameControlRetry &&& frameControlToDs = 0 := by decide
  have hfrom : frameControlRetry &&& frameControlFromDs = 0 := by decide
  simp [addresses, hasFlag_or_retry hto, hasFlag_or_retry hfrom]

variable (h : 2 ≤ packet.length)
include h

/-- The header of a packet that is sent again differs in the retry bit only. -/
theorem dataHeader_withRetry :
    dataHeader (withRetry packet) =
      { dataHeader packet with
        frameControl := (dataHeader packet).frameControl ||| frameControlRetry } := by
  simp [dataHeader, le16At_withRetry h, isFourAddress_or_retry, addressAt_withRetry,
    le16At_withRetry_of_le]

theorem dataHeaderSize_withRetry :
    dataHeaderSize (withRetry packet) = dataHeaderSize packet := by
  simp [dataHeaderSize, le16At_withRetry h, isFourAddress_or_retry]

theorem dataBody_withRetry : dataBody (withRetry packet) = dataBody packet := by
  have hsize := dataHeaderSize_le packet
  rw [dataBody, dataHeaderSize_withRetry h, drop_withRetry (by omega), dataBody]

theorem isDataFrame_withRetry (hf : IsDataFrame packet) : IsDataFrame (withRetry packet) where
  type := by
    rw [le16At_withRetry h, frameControlGetType, or_retry_and (by decide)]
    exact hf.type
  subtype := by
    rw [le16At_withRetry h, frameControlGetSubtype, or_retry_and (by decide)]
    exact hf.subtype
  size := by
    rw [dataHeaderSize_withRetry h, length_withRetry]
    exact hf.size

omit h

/-- A copy has the sequence control of its frame. -/
theorem IsCopy.sequenceControl_eq (h : IsCopy frame packet) :
    sequenceControl packet = sequenceControl frame := by
  rcases h with rfl | rfl
  · rfl
  · exact le16At_withRetry_of_le (by decide)

/-- What a copy has in common with its frame. -/
structure IsCopy.Same (frame packet : List UInt8) : Prop where
  data : IsDataFrame packet
  sequenceControl : sequenceControl packet = sequenceControl frame
  address1 : (dataHeader packet).address1 = (dataHeader frame).address1
  address2 : (dataHeader packet).address2 = (dataHeader frame).address2
  unprotected : hasFlag (dataHeader packet).frameControl frameControlProtectedFrame =
    hasFlag (dataHeader frame).frameControl frameControlProtectedFrame
  ethernetFrame : ethernetFrame (dataHeader packet) (dataBody packet) =
    ethernetFrame (dataHeader frame) (dataBody frame)

theorem IsCopy.same (h : IsCopy frame packet) (hf : IsDataFrame frame) :
    IsCopy.Same frame packet := by
  have hlen : 2 ≤ frame.length := by
    have := dataHeaderSize_le frame
    have := hf.size
    omega
  rcases h with rfl | rfl
  · exact ⟨hf, rfl, rfl, rfl, rfl, rfl⟩
  · have hdata := isDataFrame_withRetry hlen hf
    have hprotected : frameControlRetry &&& frameControlProtectedFrame = 0 := by decide
    refine ⟨hdata, ?_, ?_, ?_, ?_, ?_⟩ <;>
      simp [U80211.sequenceControl, Decoder.ethernetFrame, dataHeader_withRetry hlen,
        dataBody_withRetry hlen, addresses_or_retry, hasFlag_or_retry hprotected]

end Copies

/-! ## The filter of a connected device -/

/-- The sequence control that the filter compares with. -/
def Association.remembered (a : Association) : Option UInt16 :=
  if a.receivedSequenceControlValid then some a.receivedSequenceControl else none

/-- The device is associated with the access point. -/
structure Association.Connected (a : Association) (ap : AccessPoint) (last : Option UInt16) :
    Prop where
  state : a.state = .associated
  ap : a.ap = some ap
  remembered : a.remembered = last

section Filter

variable {a : Association} {ap : AccessPoint} {last : Option UInt16} {header : HeaderDescription}
  {device device' : Device} {packet : List UInt8} {effects : List ReceiveEffect}

theorem remembered_eq_some_iff {control : UInt16} :
    a.remembered = some control ↔
      a.receivedSequenceControlValid = true ∧ a.receivedSequenceControl = control := by
  unfold Association.remembered
  split <;> simp [*]

/-- A data frame of the access point is what is remembered next. -/
theorem Association.Connected.filter (h : a.Connected ap last)
    (hs : header.address2 = ap.macAddress) :
    (associationIsDuplicate a header .associated).2.Connected ap (some header.sequenceControl) := by
  have hap : apHasAddress a header.address2 = true := apHasAddress_iff.mpr ⟨ap, h.ap, hs.symm⟩
  unfold associationIsDuplicate
  rw [if_pos ⟨h.state, hap⟩]
  split
  · next hdup =>
    simp only [Bool.and_eq_true, beq_iff_eq] at hdup
    exact ⟨h.state, h.ap, remembered_eq_some_iff.mpr ⟨hdup.1.2, hdup.2⟩⟩
  · exact ⟨h.state, h.ap, rfl⟩

/-- The filter of another state does not look at a frame. -/
theorem Association.Connected.filter_of_ne (h : a.Connected ap last) {expectedState : DeviceState}
    (hne : expectedState ≠ .associated) :
    associationIsDuplicate a header expectedState = (false, a) := by
  unfold associationIsDuplicate
  rw [h.state, if_neg (fun hboth => hne hboth.1.symm)]

theorem Association.Connected.filter_of_other (h : a.Connected ap last)
    (hs : header.address2 ≠ ap.macAddress) {expectedState : DeviceState} :
    associationIsDuplicate a header expectedState = (false, a) := by
  refine associationIsDuplicate_of_foreign ?_
  intro ap' hap'
  cases h.ap.symm.trans hap'
  exact hs

/-- The filter drops what repeats the frame that is remembered. -/
theorem Association.Connected.isDuplicate_iff (h : a.Connected ap last)
    (hs : (dataHeader packet).address2 = ap.macAddress) :
    IsDuplicate a (dataHeader packet) ↔ repeats sequenceControl hasRetry last packet = true := by
  have hap : a.ap.map AccessPoint.macAddress = some (dataHeader packet).address2 := by
    rw [h.ap, hs]
    rfl
  rw [repeats_iff, ← h.remembered, remembered_eq_some_iff]
  exact ⟨fun hd => hd.2.2, fun hd => ⟨h.state, hap, hd⟩⟩

/-! ## Packets -/

/-- A data frame from the access point, for the device, unprotected and convertible to Ethernet. -/
structure Deliverable (own : MacAddress) (ap : AccessPoint) (packet : List UInt8) : Prop where
  data : IsDataFrame packet
  sender : (dataHeader packet).address2 = ap.macAddress
  receiver : ForDevice own (dataHeader packet)
  unprotected : hasFlag (dataHeader packet).frameControl frameControlProtectedFrame = false
  convertible : (ethernetFrame (dataHeader packet) (dataBody packet)).isSome

theorem Deliverable.of_copy {own : MacAddress} {frame : List UInt8} (h : Deliverable own ap frame)
    (hc : IsCopy frame packet) : Deliverable own ap packet := by
  have hsame := hc.same h.data
  refine ⟨hsame.data, hsame.address2.trans h.sender, ?_, hsame.unprotected.trans h.unprotected, ?_⟩
  · unfold ForDevice
    rw [hsame.address1]
    exact h.receiver
  · rw [hsame.ethernetFrame]
    exact h.convertible

theorem Accepted.header_eq {rx : CipherRx} (ha : Accepted device packet header rx)
    (hf : IsDataFrame packet) : header = dataHeader packet := by
  obtain ⟨r, hr, rfl, -⟩ := ha.read
  cases (deserializeHeader_of_isDataFrame hf).symm.trans hr
  rfl

/-- A deliverable packet comes to the filter. -/
theorem Received.association_of_deliverable (h : Received device packet device' effects)
    (hp : Deliverable device.macAddress ap packet) :
    device'.association =
      (associationIsDuplicate device.association (dataHeader packet) .associated).2 := by
  have hread := deserializeHeader_of_isDataFrame hp.data
  have htype : frameControlGetType (dataHeader packet).frameControl = frameControlTypeData :=
    hp.data.type
  cases h with
  | malformed hr => cases hread.symm.trans hr
  | rejected hr hprotection =>
    cases hread.symm.trans hr
    simp [processProtection, hp.unprotected] at hprotection
  | management ha ht =>
    rw [ha.header_eq hp.data, htype] at ht
    cases ht
  | unhandled ha _ ht =>
    rw [ha.header_eq hp.data] at ht
    exact absurd htype ht
  | misaddressed ha _ hd =>
    rw [ha.header_eq hp.data, ha.macAddress, dataPacketForDevice_iff.mpr hp.receiver] at hd
    cases hd
  | duplicate ha _ _ hdup =>
    rw [ha.header_eq hp.data, ha.association] at hdup
    rw [hdup]
  | data ha _ _ hdup =>
    rw [ha.header_eq hp.data, ha.association] at hdup
    rw [hdup]

/-- A deliverable packet is delivered unless it repeats the one before, and is remembered. -/
theorem Received.of_deliverable (h : Received device packet device' effects)
    (ha : device.association.Connected ap last) (hp : Deliverable device.macAddress ap packet) :
    device'.association.Connected ap (some (sequenceControl packet)) ∧
      effects.filterMap ReceiveEffect.frame? =
        if repeats sequenceControl hasRetry last packet then []
        else (ethernetFrame (dataHeader packet) (dataBody packet)).toList := by
  constructor
  · rw [h.association_of_deliverable hp]
    exact ha.filter hp.sender
  · rw [h.frames, decode]
    have hplain : unprotect device.macAddress device.keys (dataHeader packet) (dataBody packet) =
        some (dataBody packet) := by
      simp [unprotect, hp.unprotected]
    cases hrepeats : repeats sequenceControl hasRetry last packet with
    | true =>
      have hdup := (ha.isDuplicate_iff hp.sender).mpr hrepeats
      simp [hdup]
    | false =>
      have hdup : ¬ IsDuplicate device.association (dataHeader packet) := by
        simp [ha.isDuplicate_iff hp.sender, hrepeats]
      simp [hp.data, hp.receiver, hdup, hplain]

/-- What a section leaves of a connected device, unless it ends the connection. -/
theorem SectionStep.association_of_connected {cause : Cause} {r : SectionResult}
    (h : SectionStep a cause r) (hc : a.Consistent) (hs : a.state = .associated)
    (hs' : r.association.state = .associated) : r.association = a := by
  cases h with
  | unchanged _ => rfl
  | authenticated _ hstate _ => cases hs.symm.trans hstate
  | ended hcontext _ =>
    have hidle : a.state.inProgress = false := by
      rw [hs]
      rfl
    exact absurd hcontext (hc.not_context hidle)
  | disconnected _ _ _ => cases hs'

theorem Device.applySection_association (r : SectionResult) :
    (device.applySection r).1.association = r.association := by
  unfold Device.applySection
  cases r.held <;> rfl

/-- A management frame leaves the filter of a connected device alone, unless it ends the
connection. -/
theorem runPlan_association_of_connected (ha : device.association.Connected ap last)
    (hc : device.association.Consistent) {own : MacAddress} {data : List UInt8}
    {plan : ManagementPlan} (hp : Checked own header data plan)
    (hs : (runPlan device header plan).1.association.state = .associated) :
    (runPlan device header plan).1.association = device.association := by
  have hsection : ∀ message, (device.applySection
        (associationProcess device.association message)).1.association.state = .associated →
      (device.applySection (associationProcess device.association message)).1.association =
        device.association := by
    intro message hstate
    rw [Device.applySection_association] at hstate ⊢
    exact (associationProcess_step hc message).association_of_connected hc ha.state hstate
  cases hp with
  | ignore => rfl
  | authentication =>
    rw [runPlan, ha.filter_of_ne (by decide)] at hs ⊢
    exact hsection _ hs
  | response =>
    rw [runPlan, ha.filter_of_ne (by decide)] at hs ⊢
    exact hsection _ hs
  | deauthentication => exact hsection _ hs
  | disassociation => exact hsection _ hs
  | scan => rfl

/-- The packet is a data frame from the access point. -/
def FromAccessPoint (ap : AccessPoint) (packet : List UInt8) : Prop :=
  IsDataFrame packet ∧ (dataHeader packet).address2 = ap.macAddress

instance (ap : AccessPoint) (packet : List UInt8) : Decidable (FromAccessPoint ap packet) :=
  inferInstanceAs (Decidable (_ ∧ _))

/-- Another packet leaves the filter of a connected device alone, unless it ends the connection. -/
theorem Received.association_of_other (h : Received device packet device' effects)
    (ha : device.association.Connected ap last) (hc : device.association.Consistent)
    (hp : ¬ FromAccessPoint ap packet) (hs : device'.association.state = .associated) :
    device'.association = device.association := by
  cases h with
  | malformed _ => rfl
  | rejected _ _ => rfl
  | unhandled hac _ _ => exact hac.association
  | misaddressed hac _ _ => exact hac.association
  | management hac _ hplan =>
    rw [← hac.association] at ha hc ⊢
    exact runPlan_association_of_connected ha hc (processManagementPacket_checked hplan) hs
  | duplicate hac ht _ hdup =>
    obtain ⟨hdata, rfl, -⟩ := hac.isDataFrame ht
    rw [hac.association, ha.filter_of_other (fun hsender => hp ⟨hdata, hsender⟩)] at hdup
    cases hdup
  | data hac ht _ hdup _ =>
    obtain ⟨hdata, rfl, -⟩ := hac.isDataFrame ht
    rw [hac.association, ha.filter_of_other (fun hsender => hp ⟨hdata, hsender⟩)] at hdup
    cases hdup
    rfl

/-! ## Steps of other threads -/

variable {s s' : System}

/-- The step takes a data frame of the access point, which a call handles, through the filter. -/
def System.filtersDataOf (s : System) (ap : AccessPoint) : Action → Bool
  | .advance i _ =>
    match s.calls[i]? with
    | some (.filter frame .associated _) => decide (frame.header.address2 = ap.macAddress)
    | _ => false
  | _ => false

/-- What the duplicate filter does to the association. -/
theorem step_filter {i : Nat} {o : Outcome} {frame : Frame} {expectedState : DeviceState}
    {message : Option Message} (hs : step (.advance i o) s = some s')
    (hc : s.calls[i]? = some (.filter frame expectedState message)) :
    s'.association = (associationIsDuplicate s.association frame.header expectedState).2 := by
  simp only [step, hc, stepCall, Option.some_inj] at hs
  rw [← hs]
  rfl

/-- Another step leaves the filter of a connected device alone, unless it ends the connection. -/
theorem Effect.connected {action : Action} (he : Effect s action s')
    (hc : s.association.Consistent) (ha : s.association.Connected ap last)
    (hs' : s'.association.state = .associated)
    (hfilter : ∀ i o frame expectedState message, action = .advance i o →
      s.calls[i]? ≠ some (.filter frame expectedState message)) :
    s'.association.Connected ap last := by
  have hsection : ∀ {cause r}, SectionStep s.association cause r →
      r.association.state = .associated → r.association.Connected ap last := by
    intro cause r hr hstate
    rw [hr.association_of_connected hc ha.state hstate]
    exact ha
  cases he with
  | install _ _ hs => cases hs.symm.trans ha.state
  | deauthenticateFirst _ _ => cases hs'
  | deauthenticateSecond _ hs => cases hs.symm.trans ha.state
  | scanBegin hs => cases hs.symm.trans ha.state
  | scanEnd hs => cases hs.symm.trans ha.state
  | filter hcall => exact absurd hcall (hfilter _ _ _ _ _ rfl)
  | process _ hr =>
    simp only [System.setCall_association, applySection_association] at hs' ⊢
    exact hsection hr hs'
  | timeout _ _ hr =>
    simp only [System.setObjects_association, applySection_association] at hs' ⊢
    exact hsection hr hs'
  -- these steps write fields that the filter does not read
  | takeDisconnected | wait | cleanupFirst | cleanupSecond => exact ⟨ha.state, ha.ap, ha.remembered⟩
  | _ => exact ha

/-- **A step of another thread leaves the filter of a connected device alone**, unless it ends the
connection. -/
theorem step_connected {action : Action} (hs : step action s = some s')
    (hc : s.association.Consistent) (ha : s.association.Connected ap last)
    (hs' : s'.association.state = .associated) (hdata : s.filtersDataOf ap action = false) :
    s'.association.Connected ap last := by
  by_cases hfilter : ∃ i o frame expectedState message, action = .advance i o ∧
      s.calls[i]? = some (.filter frame expectedState message)
  · obtain ⟨i, o, frame, expectedState, message, rfl, hcall⟩ := hfilter
    have hunchanged : associationIsDuplicate s.association frame.header expectedState =
        (false, s.association) := by
      by_cases hne : expectedState = .associated
      · subst hne
        refine ha.filter_of_other ?_
        simpa [System.filtersDataOf, hcall] using hdata
      · exact ha.filter_of_ne hne
    rw [step_filter hs hcall, hunchanged]
    exact ha
  · refine (step_effect hc hs).connected hc ha hs' ?_
    intro i o frame expectedState message he hcall
    exact hfilter ⟨i, o, frame, expectedState, message, he, hcall⟩

/-! ## Runs -/

variable {own : MacAddress} {l l' l₀ : Link} {τ : List Link.Transition}

/-- The data frame of the access point that is received in the transition. -/
def receivedIn (ap : AccessPoint) (t : Link.Transition) : Option (List UInt8) :=
  match t.action with
  | .packet packet => if FromAccessPoint ap packet then some packet else none
  | _ => none

/-- The frames that the kernel gets in the transition. -/
def deliveredIn (t : Link.Transition) : List (List UInt8) :=
  match t.action with
  | .packet packet =>
    match processPacket t.before.device packet with
    | some (_, effects) => effects.filterMap ReceiveEffect.frame?
    | none => []
  | _ => []

/-- The data frames of the access point, as they are received. -/
def received (ap : AccessPoint) (τ : List Link.Transition) : List (List UInt8) :=
  τ.filterMap (receivedIn ap)

/-- What the kernel gets of the data frames of the access point. -/
def delivered (ap : AccessPoint) (τ : List Link.Transition) : List (List UInt8) :=
  τ.flatMap fun t => if (receivedIn ap t).isSome then deliveredIn t else []

/-- The transition takes a data frame of the access point, which a call handles, through the
filter. -/
def filtersDataIn (ap : AccessPoint) (t : Link.Transition) : Bool :=
  match t.action with
  | .system action => t.before.system.filtersDataOf ap action
  | _ => false

/-- The device stays associated with the access point, whose data frames are handed to
`u80211_process_packet`. -/
structure StaysAssociated (ap : AccessPoint) (l : Link) (τ : List Link.Transition) : Prop where
  state : l.system.association.state = .associated
  accessPoint : l.system.association.ap = some ap
  stays : ∀ t ∈ τ, t.after.system.association.state = .associated
  packets : ∀ t ∈ τ, filtersDataIn ap t = false

theorem Link.receive_association (l : Link) (device : Device) (effects : List ReceiveEffect) :
    (l.receive device effects).system.association = device.association := by
  have hkeeps : ∀ (s : System) (effects : List ReceiveEffect),
      (effects.foldl ReceiveEffect.perform s).association = s.association := by
    intro s effects
    induction effects generalizing s with
    | nil => rfl
    | cons e effects ih =>
      rw [List.foldl_cons, ih]
      cases e <;> rfl
  exact hkeeps _ _

/-- The Ethernet frame that a packet is converted to. -/
def ethernetOf (packet : List UInt8) : Option (List UInt8) :=
  ethernetFrame (dataHeader packet) (dataBody packet)

theorem receivedIn_eq_some {t : Link.Transition} (h : receivedIn ap t = some packet) :
    t.action = .packet packet ∧ FromAccessPoint ap packet := by
  unfold receivedIn at h
  split at h
  · next packet' haction =>
    split at h
    · next hfrom =>
      cases h
      exact ⟨haction, hfrom⟩
    · cases h
  · cases h

/-- A data frame of the access point is remembered, and delivered unless it repeats the one
before. -/
theorem Link.step_of_receivedIn {action : Link.Action} (hs : step action l = some l')
    (hl : Link.Reachable own l) (ha : l.system.association.Connected ap last)
    (hr : receivedIn ap ⟨l, action, l'⟩ = some packet) (hp : Deliverable own ap packet) :
    l'.system.association.Connected ap (some (sequenceControl packet)) ∧
      deliveredIn ⟨l, action, l'⟩ =
        if repeats sequenceControl hasRetry last packet then []
        else (ethernetOf packet).toList := by
  obtain ⟨rfl, -⟩ := receivedIn_eq_some hr
  obtain ⟨device', effects, hprocess, hreceived⟩ := processPacket_received l.device packet
  have hown : l.device.macAddress = own := hl.system.ownAddress_eq
  rw [← hown] at hp
  obtain ⟨hconnected, hframes⟩ := hreceived.of_deliverable ha hp
  simp only [step, hprocess, Option.map_some, Option.some_inj] at hs
  subst hs
  refine ⟨?_, ?_⟩
  · rw [Link.receive_association]
    exact hconnected
  · simp [deliveredIn, hprocess, hframes, ethernetOf]

/-- Nothing else changes what is remembered. -/
theorem Link.step_of_receivedIn_eq_none {action : Link.Action} (hs : step action l = some l')
    (hl : Link.Reachable own l) (ha : l.system.association.Connected ap last)
    (hs' : l'.system.association.state = .associated)
    (hpackets : filtersDataIn ap ⟨l, action, l'⟩ = false)
    (hr : receivedIn ap ⟨l, action, l'⟩ = none) : l'.system.association.Connected ap last := by
  have hc := hl.system.consistent
  cases action with
  | packet packet =>
    have hfrom : ¬ FromAccessPoint ap packet := by simpa [receivedIn] using hr
    obtain ⟨device', effects, hprocess, hreceived⟩ := processPacket_received l.device packet
    simp only [step, hprocess, Option.map_some, Option.some_inj] at hs
    subst hs
    rw [Link.receive_association] at hs' ⊢
    rw [hreceived.association_of_other ha hc hfrom hs']
    exact ha
  | system a =>
    obtain ⟨s', hstep, rfl⟩ := Option.map_eq_some_iff.mp hs
    exact U80211.step_connected hstep hc ha hs' hpackets
  | other packetCount txSequenceControl keys =>
    cases hs
    exact ha

/-- **In a run the filter is a receiver that drops retransmissions.** -/
theorem Link.run_delivers (h₀ : Link.Reachable own l₀) (h : Lts.Run Link.step l₀ τ l)
    (hstays : StaysAssociated ap l₀ τ) (hp : ∀ p ∈ received ap τ, Deliverable own ap p) :
    l.system.association.Connected ap
        (remembered sequenceControl l₀.system.association.remembered (received ap τ)) ∧
      delivered ap τ =
        (passing sequenceControl hasRetry l₀.system.association.remembered
          (received ap τ)).flatMap fun p => (ethernetOf p).toList := by
  induction h with
  | nil => exact ⟨⟨hstays.state, hstays.accessPoint, rfl⟩, rfl⟩
  | @snoc τ l l' action hrun hs ih =>
    have hbefore : StaysAssociated ap l₀ τ :=
      { hstays with
        stays := fun t ht => hstays.stays t (List.mem_append_left _ ht)
        packets := fun t ht => hstays.packets t (List.mem_append_left _ ht) }
    have hlast : (⟨l, action, l'⟩ : Link.Transition) ∈ τ ++ [⟨l, action, l'⟩] := by simp
    have hreceived : received ap (τ ++ [⟨l, action, l'⟩]) =
        received ap τ ++ (receivedIn ap ⟨l, action, l'⟩).toList :=
      Lts.filterMap_concat _ _
    rw [hreceived] at hp ⊢
    obtain ⟨ha, hdelivered⟩ := ih hbefore fun p hmem => hp p (List.mem_append_left _ hmem)
    have hl : Link.Reachable own l := Lts.Reachable.run h₀ hrun
    have hmore : delivered ap (τ ++ [⟨l, action, l'⟩]) = delivered ap τ ++
        if (receivedIn ap ⟨l, action, l'⟩).isSome then deliveredIn ⟨l, action, l'⟩ else [] := by
      simp [delivered]
    rw [hmore, hdelivered]
    cases hr : receivedIn ap ⟨l, action, l'⟩ with
    | none =>
      have hpackets := hstays.packets _ hlast
      simpa using Link.step_of_receivedIn_eq_none hs hl ha (hstays.stays _ hlast) hpackets hr
    | some packet =>
      have hdeliverable := hp packet (by simp [hr])
      obtain ⟨ha', hdelivered'⟩ := Link.step_of_receivedIn hs hl ha hr hdeliverable
      rw [Option.toList_some, remembered_concat, passing_concat, List.flatMap_append]
      refine ⟨ha', ?_⟩
      rw [Option.isSome_some, if_pos rfl, hdelivered']
      split <;> simp

/-! ## The association response -/

/-- The sections of the messages leave the filter alone. -/
theorem SectionStep.remembered {cause : Cause} {r : SectionResult} (h : SectionStep a cause r) :
    r.association.remembered = a.remembered := by
  cases h <;> rfl

/-- Only an association response of the access point completes an association. -/
theorem SectionStep.response_of_associated {message : Message} {r : SectionResult}
    (h : SectionStep a (.message message) r) (hs : a.state = .associating)
    (hs' : r.association.state = .associated) :
    ∃ d context, message = .response d ∧ a.associationContext = some context ∧
      d.address = context.ap.macAddress := by
  cases h with
  | unchanged _ => cases hs.symm.trans hs'
  | authenticated _ hstate _ => cases hs.symm.trans hstate
  | disconnected hstate _ _ => cases hs.symm.trans hstate
  | ended hcontext hends =>
    cases hends with
    | accepted _ address _ => exact ⟨_, _, rfl, hcontext, address⟩
    | refused => cases hs'
    | declined => cases hs'
    | tornDown => cases hs'

theorem Association.Consistent.filter (h : a.Consistent) {expectedState : DeviceState} :
    (associationIsDuplicate a header expectedState).2.Consistent := by
  obtain ⟨control, valid, he⟩ := associationIsDuplicate_cases a header expectedState
  rw [he]
  exact ⟨h.context_iff, h.context_ap, h.context_generation, h.ap_connected, h.ap_idle,
    h.pending_iff, h.pending_context⟩

/-- In another state the filter does nothing. -/
theorem associationIsDuplicate_of_ne {expectedState : DeviceState} (h : a.state ≠ expectedState) :
    associationIsDuplicate a header expectedState = (false, a) := by
  unfold associationIsDuplicate
  rw [if_neg fun hboth => h hboth.1]

/-- What passes the filter in its state is remembered. -/
theorem remembered_of_passed {expectedState : DeviceState} {a' : Association}
    (h : associationIsDuplicate a header expectedState = (false, a'))
    (hs : a.state = expectedState) (hap : apHasAddress a header.address2 = true) :
    a'.remembered = some header.sequenceControl := by
  unfold associationIsDuplicate at h
  rw [if_pos ⟨hs, hap⟩] at h
  split at h
  · cases h
  · cases h
    rfl

/-- The association response is remembered. -/
theorem runPlan_remembered (hc : device.association.Consistent) {own : MacAddress}
    {data : List UInt8} {plan : ManagementPlan} (hp : Checked own header data plan)
    (hs : device.association.state = .associating)
    (hs' : (runPlan device header plan).1.association.state = .associated) :
    (runPlan device header plan).1.association.remembered = some header.sequenceControl := by
  have hsection : ∀ message, (device.applySection
        (associationProcess device.association message)).1.association.state = .associated →
      ∃ d context, message = .response d ∧ device.association.associationContext = some context ∧
        d.address = context.ap.macAddress := by
    intro message hstate
    rw [Device.applySection_association] at hstate
    exact (associationProcess_step hc message).response_of_associated hs hstate
  cases hp with
  | ignore => cases hs.symm.trans hs'
  | scan => cases hs.symm.trans hs'
  | authentication =>
    have hne : device.association.state ≠ .authenticating := by
      rw [hs]
      decide
    rw [runPlan, associationIsDuplicate_of_ne hne] at hs'
    obtain ⟨d, context, he, -⟩ := hsection _ hs'
    cases he
  | deauthentication =>
    obtain ⟨d, context, he, -⟩ := hsection _ hs'
    cases he
  | disassociation =>
    obtain ⟨d, context, he, -⟩ := hsection _ hs'
    cases he
  | @response d _ hdevice haddress =>
    obtain ⟨h23, -⟩ := managementPacketForDevice_iff.mp hdevice
    rcases hfilter : associationIsDuplicate device.association header .associating with ⟨dup, a'⟩
    have hc' : a'.Consistent := by
      have h : (associationIsDuplicate device.association header .associating).2.Consistent :=
        hc.filter
      rwa [hfilter] at h
    obtain ⟨control, valid, ha'⟩ :=
      associationIsDuplicate_cases device.association header .associating
    rw [hfilter] at ha'
    dsimp only at ha'
    rw [runPlan, hfilter] at hs' ⊢
    cases dup with
    | true =>
      have hstate : a'.state = .associating := by rw [ha', hs]
      cases hstate.symm.trans hs'
    | false =>
      rw [Device.applySection_association] at hs' ⊢
      have hstep := associationProcess_step hc' (.response d)
      have hstate : a'.state = .associating := by rw [ha', hs]
      obtain ⟨d', context, hd', hcontext, hsender⟩ := hstep.response_of_associated hstate hs'
      cases hd'
      have hap : device.association.ap = some context.ap := by
        rw [← hc'.context_ap context hcontext, ha']
      have hfrom : apHasAddress device.association header.address2 = true :=
        apHasAddress_iff.mpr ⟨context.ap, hap, by rw [← hsender, haddress, h23]⟩
      rw [hstep.remembered]
      exact remembered_of_passed hfilter hs hfrom

/-- The packet completes the association of the device. -/
structure Associates (own : MacAddress) (response : List UInt8) (l l' : Link) : Prop where
  reachable : Link.Reachable own l
  step : Link.step (.packet response) l = some l'
  associating : l.system.association.state = .associating
  associated : l'.system.association.state = .associated

/-- **The sequence control of the association response is remembered.** -/
theorem Associates.remembered {response : List UInt8} (h : Associates own response l l')
    {r : Deserialized} (hr : deserializeHeader response = some (.ok r)) :
    l'.system.association.remembered = some r.header.sequenceControl := by
  obtain ⟨hreachable, hs, hstate, hstate'⟩ := h
  have hc := hreachable.system.consistent
  obtain ⟨device', effects, hprocess, hreceived⟩ := processPacket_received l.device response
  simp only [Link.step, hprocess, Option.map_some, Option.some_inj] at hs
  subst hs
  rw [Link.receive_association] at hstate' ⊢
  have hsame : ∀ {a : Association}, a = l.system.association → a.state ≠ .associated := by
    rintro a rfl he
    cases hstate.symm.trans he
  cases hreceived with
  | malformed _ => exact absurd hstate' (hsame rfl)
  | rejected _ _ => exact absurd hstate' (hsame rfl)
  | unhandled ha _ _ => exact absurd hstate' (hsame ha.association)
  | misaddressed ha _ _ => exact absurd hstate' (hsame ha.association)
  | @management header rx plan ha _ hplan =>
    obtain ⟨r', hr', rfl, -⟩ := ha.read
    cases hr.symm.trans hr'
    have hassociation : rx.1.association = l.system.association := ha.association
    rw [← hassociation] at hc hstate
    exact runPlan_remembered hc (processManagementPacket_checked hplan) hstate hstate'
  | duplicate ha _ _ hdup =>
    have hassociation : _ = l.system.association := ha.association
    rw [hassociation, associationIsDuplicate_of_ne (by rw [hstate]; decide)] at hdup
    cases hdup
  | data ha _ _ hdup _ =>
    have hassociation : _ = l.system.association := ha.association
    rw [hassociation, associationIsDuplicate_of_ne (by rw [hstate]; decide)] at hdup
    cases hdup
    exact absurd hstate' (hsame rfl)

/-! ## Every frame once -/

/-- Copies of frames become what the frames become. -/
theorem flatMap_ethernetOf {frames ps : List (List UInt8)} (h : List.Forall₂ IsCopy frames ps)
    (hframes : ∀ f ∈ frames, Deliverable own ap f) :
    (ps.flatMap fun p => (ethernetOf p).toList).map some = frames.map ethernetOf := by
  induction h with
  | nil => rfl
  | @cons f p frames ps hcopy _ ih =>
    rw [List.forall_mem_cons] at hframes
    obtain ⟨e, he⟩ := Option.isSome_iff_exists.mp hframes.1.convertible
    have hp : ethernetOf p = some e := (hcopy.same hframes.1.data).ethernetFrame.trans he
    have hf : ethernetOf f = some e := he
    simp [hp, hf, ih hframes.2]

/-- **Retransmissions are delivered exactly once.** In every run in which the device stays
associated with an access point, whose data frames arrive as bursts of copies, of which all but the
first have the retry bit, the kernel gets every frame exactly once and in order. Neighbouring frames
have different sequence controls, and the first one has another than the one before it: another than
the device remembers, or, directly after the association, than the association response. -/
theorem retransmissions_delivered_once {frames : List (List UInt8)}
    (h₀ : Link.Reachable own l₀) (h : Lts.Run Link.step l₀ τ l)
    (hstays : StaysAssociated ap l₀ τ) (hframes : ∀ f ∈ frames, Deliverable own ap f)
    (hbursts : Bursts hasRetry IsCopy frames (received ap τ))
    (hne : frames.IsChain fun f g => sequenceControl f ≠ sequenceControl g)
    (hfirst : (∀ p ∈ (received ap τ).head?,
        repeats sequenceControl hasRetry l₀.system.association.remembered p = false) ∨
      ∃ l₁ response r, Associates own response l₁ l₀ ∧ deserializeHeader response = some (.ok r) ∧
        ∀ f ∈ frames.head?, r.header.sequenceControl ≠ sequenceControl f) :
    (delivered ap τ).map some = frames.map ethernetOf := by
  have hdeliverable : ∀ p ∈ received ap τ, Deliverable own ap p := by
    intro p hp
    obtain ⟨f, hf, hcopy⟩ := hbursts.exists_copy p hp
    exact (hframes f hf).of_copy hcopy
  obtain ⟨-, hdelivered⟩ := Link.run_delivers h₀ h hstays hdeliverable
  have hstart : ∀ p ∈ (received ap τ).head?,
      repeats sequenceControl hasRetry l₀.system.association.remembered p = false := by
    rcases hfirst with hfirst | ⟨l₁, response, r, hassociates, hr, hne₁⟩
    · exact hfirst
    · intro p hp
      obtain ⟨f, hf, hcopy⟩ := hbursts.head p hp
      rw [hassociates.remembered hr]
      simp [repeats, hcopy.sequenceControl_eq, hne₁ f hf]
  rw [hdelivered]
  exact flatMap_ethernetOf (hbursts.passing (fun _ _ hcopy => hcopy.sequenceControl_eq) hne hstart)
    hframes

end Filter

namespace Scenario

/-- A data frame that station `n` sends to the device. -/
def data (n control : UInt8) : List UInt8 :=
  [0x08, 0x02, 0, 0] ++ device.toList ++ (mac n).toList ++ (mac 3).toList ++ [control, 0] ++
    [0xaa, 0xaa, 0x03, 0, 0, 0, 8, 0, control]

/-- The device while it waits for the association response of access point 2. -/
def associating : Link :=
  (Lts.exec Link.step ((join 0 2 ++ receive 1 (authentication 2 0) ++ complete 0).map .system)
    (.registered device)).getD (.registered device)

/-- The device right after the association response. -/
def associatedLink : Link :=
  (Link.step (.packet (packet (response 2 0))) associating).getD associating

/-- Two frames of access point 2, the first of which arrives only as it is sent again. -/
def traffic : List Link.Action :=
  [.packet (withRetry (data 2 0x10)), .packet (data 4 0x20), .packet (withRetry (data 2 0x10)),
    .system (.invoke .waitForAssociationCompletion), .packet (packet (deauthentication 4)),
    .packet (data 2 0x20), .packet (withRetry (data 2 0x20))]

end Scenario

open Scenario in
theorem retransmissions_delivered_once_lossy :
    ∃ l, Lts.Run Link.step associatedLink (Lts.trace Link.step traffic associatedLink) l ∧
      received (accessPoint 2) (Lts.trace Link.step traffic associatedLink) =
        [withRetry (data 2 0x10), withRetry (data 2 0x10), data 2 0x20, withRetry (data 2 0x20)] ∧
      (delivered (accessPoint 2) (Lts.trace Link.step traffic associatedLink)).map some =
        [data 2 0x10, data 2 0x20].map ethernetOf := by
  have hreceived : received (accessPoint 2) (Lts.trace Link.step traffic associatedLink) =
      [withRetry (data 2 0x10), withRetry (data 2 0x10), data 2 0x20,
        withRetry (data 2 0x20)] := by
    decide +kernel
  have hassociating : Link.Reachable device associating := by
    have hsome : (Lts.exec Link.step ((join 0 2 ++ receive 1 (authentication 2 0) ++
        complete 0).map .system) (.registered device)).isSome := by decide +kernel
    obtain ⟨l, hl⟩ := Option.isSome_iff_exists.mp hsome
    rw [associating, hl]
    exact (Lts.exec_run hl).reachable
  have hassociates : Associates device (packet (response 2 0)) associating associatedLink := by
    have hsome : (Link.step (.packet (packet (response 2 0))) associating).isSome := by
      decide +kernel
    obtain ⟨l, hl⟩ := Option.isSome_iff_exists.mp hsome
    refine ⟨hassociating, by rw [associatedLink, hl, Option.getD_some], ?_, ?_⟩
    · decide +kernel
    · decide +kernel
  have hlink : Link.Reachable device associatedLink := by
    obtain ⟨τ, hτ⟩ := hassociating
    exact ⟨_, hτ.snoc hassociates.step⟩
  have hrun : (Lts.exec Link.step traffic associatedLink).isSome := by decide +kernel
  obtain ⟨l, hl⟩ := Option.isSome_iff_exists.mp hrun
  have hstays : StaysAssociated (accessPoint 2) associatedLink
      (Lts.trace Link.step traffic associatedLink) := by
    constructor <;> decide +kernel
  have hframes : ∀ f ∈ [data 2 0x10, data 2 0x20], Deliverable device (accessPoint 2) f := by
    intro f hf
    simp only [List.mem_cons, List.not_mem_nil, or_false] at hf
    rcases hf with rfl | rfl <;> constructor <;> decide
  have hbursts : Bursts hasRetry IsCopy [data 2 0x10, data 2 0x20]
      (received (accessPoint 2) (Lts.trace Link.step traffic associatedLink)) := by
    have hagain : ∀ f, hasRetry (withRetry f) = true →
        ∀ y ∈ [withRetry f], IsCopy f y ∧ hasRetry y = true := by
      intro f hf y hy
      rw [List.mem_singleton.mp hy]
      exact ⟨Or.inr rfl, hf⟩
    have hsecond : Bursts hasRetry IsCopy [data 2 0x20]
        (data 2 0x20 :: ([withRetry (data 2 0x20)] ++ [])) :=
      .burst (Or.inl rfl) (hagain _ (by decide)) .nil
    rw [hreceived]
    have hcopy : IsCopy (data 2 0x10) (withRetry (data 2 0x10)) := Or.inr rfl
    exact .burst hcopy (hagain _ (by decide)) hsecond
  refine ⟨l, Lts.exec_run hl, hreceived, ?_⟩
  refine retransmissions_delivered_once hlink (Lts.exec_run hl) hstays hframes hbursts ?_ ?_
  · exact List.isChain_pair.mpr (by decide)
  · exact Or.inr ⟨associating, packet (response 2 0), _, hassociates, rfl, by decide⟩

end U80211
