import Mathlib.Order.Bounds.Defs
import U80211.Properties.Delivery
import U80211.Properties.KeyCalls

/-!
# Packet numbers over whole runs

* `replay_protection`: an entry accepts increasing packet numbers only, and no packet twice
* `transmit_numbers`: an entry gives the numbers 1, 2, 3 and so on away, each to one frame, and
  refuses when there are none left
-/

namespace U80211

namespace KeyStore

open Memory Decoder

variable {τ : List Transition} {s s' : State} {action : Action} {own : MacAddress}
  {hasSetKey hasDelKey : Bool}

/-! ## Calls for the examples -/

namespace Scenario

open U80211.Scenario

/-- A pairwise CCMP key for both directions whose bytes are all `b`. -/
def pairwiseKey (b : UInt8) : Key where
  cipher := .ccmp
  index := 0
  peer := mac 2
  key := some (List.replicate 16 b)
  keyLen := 16
  rxSeq := none
  flags := keyRx ||| keyTx ||| keyPairwise
  length_key := by
    intro bytes h
    rw [← Option.some.inj h, List.length_replicate]

/-- An Ethernet frame to station 5, in a buffer with room in front of it and behind it. -/
def request : TransmitRequest where
  descriptor :=
    { buffer := List.replicate 64 0 ++ ((mac 5).toList ++ (mac 1).toList ++ payload) ++
        List.replicate 8 0
      data := 64
      size := 17
      currentOffset := 0 }
  headroom := by decide
  tailroom := by decide
  offset := by decide

/-- Call `i` takes `n` steps. -/
def advance (i n : Nat) : List Action := List.replicate n (.advance i { })

/-- A call is made, and takes `n` steps as call `i`. -/
def call (entry : Entry) (i n : Nat) : List Action := .invoke entry :: advance i n

def start : State := .registered (mac 1) true true

/-- A packet is received twice. -/
def receivedTwice : List Action :=
  call (.setKey (pairwiseKey 7)) 0 3 ++ call (.processPacket (ccmpPacket 1)) 1 3 ++
    call (.processPacket (ccmpPacket 1)) 2 3

/-- Two frames are transmitted. -/
def transmittedTwice : List Action :=
  .associate associated :: call (.setKey (pairwiseKey 7)) 0 3 ++
    call (.transmitBuffer request) 1 5 ++ call (.transmitBuffer request) 2 5

/-- The keys change between the sections of two transmissions: the one gets the new key, and the
key of the other is deleted. A third one was there before any key, and a fourth one begins. -/
def keysChanged : List Action :=
  .associate associated :: call (.transmitBuffer request) 0 3 ++
    call (.setKey (pairwiseKey 7)) 1 3 ++ call (.transmitBuffer request) 2 5 ++
    call (.transmitBuffer request) 3 3 ++ call (.setKey (pairwiseKey 8)) 4 3 ++ advance 3 2 ++
    call (.transmitBuffer request) 5 3 ++
    call (.delKey 0 (mac 2) (pairwiseKey 8).flags) 6 2 ++ advance 5 1 ++
    call (.transmitBuffer request) 7 1

end Scenario

/-! ## Received packets -/

/-- The packet that a call processes. -/
def Call.packet? : Call → Option (List UInt8)
  | .receive packet => some packet
  | .receiveSelect packet _ _ => some packet
  | .receiveCipher packet _ _ _ => some packet
  | _ => none

/-- A packet is accepted: the entry, and the bytes of the packet. -/
def acceptedPacket (t : Transition) : Option (Nat × List UInt8) :=
  match t.action with
  | .advance i _ => do
    let (object, _) ← accepted t
    let packet ← t.before.calls[i]?.bind Call.packet?
    some (object, packet)
  | _ => none

def acceptedPackets (τ : List Transition) : List (Nat × List UInt8) := τ.filterMap acceptedPacket

/-- The transition is a step of `u80211_process_packet`. -/
def Receives (t : Transition) : Prop :=
  ∃ i outcome c packet, t.action = .advance i outcome ∧ t.before.calls[i]? = some c ∧
    c.packet? = some packet

/-- The number that a packet has for an entry of the cipher. -/
def packetNumber (cipher : Cipher) (packet : List UInt8) : Nat :=
  match deserializeHeader packet with
  | some (.ok r) => cipherNumber (some cipher) (packet.drop r.dataStart)
  | _ => 0

/-- A packet is accepted with the number that it has for the entry. -/
theorem acceptedPacket_eq_some (h : Run own hasSetKey hasDelKey τ s)
    (hs : step action s = some s') {o : Nat} {packet : List UInt8}
    (ha : acceptedPacket ⟨s, action, s'⟩ = some (o, packet)) :
    ∃ k ∈ s.device.keys, k.object = o ∧
      accepted ⟨s, action, s'⟩ = some (o, packetNumber k.cipher packet) := by
  cases action with
  | invoke entry => cases ha
  | associate association => cases ha
  | advance i outcome =>
    simp only [acceptedPacket, Option.bind_eq_bind, Option.bind_eq_some_iff] at ha
    obtain ⟨⟨o', n⟩, haccepted, packet', ⟨c, hc, hpacket⟩, he⟩ := ha
    cases he
    have haccepts := (accepted_advance hc).symm.trans haccepted
    cases c with
    | receiveCipher packet' r keyIndex cipher =>
      cases hpacket
      have hr : deserializeHeader packet = some (.ok r) := h.positions.sound i _ hc
      simp only [Call.accepts] at haccepts
      split at haccepts
      · next rx hrx =>
        obtain ⟨k, sequence, hentry, hcipher, -, -, hkeys⟩ := processCipherRx_takes hrx
        rw [hentry] at haccepts
        cases haccepts
        refine ⟨k, hkeys.mem, rfl, ?_⟩
        rw [haccepted, packetNumber, hr, hcipher]
      · cases haccepts
    | _ => cases haccepts

/-- A packet that has been accepted has been accepted with the number that it has for a key of the
cipher of the entry. -/
theorem Run.accepted_number (h : Run own hasSetKey hasDelKey τ s) :
    ∀ e ∈ acceptedPackets τ, ∃ key, (e.1, key) ∈ installs τ ∧
      (e.1, packetNumber key.cipher e.2) ∈ accepts τ := by
  refine Lts.Run.forall_event (P := fun τ _ (e : Nat × List UInt8) => ∃ key,
    (e.1, key) ∈ installs τ ∧ (e.1, packetNumber key.cipher e.2) ∈ accepts τ) ?_ ?_ h
  · rintro τ s action s' ⟨o, packet⟩ hr hs hp
    obtain ⟨k, hk, rfl, haccepted⟩ := acceptedPacket_eq_some hr hs hp
    obtain ⟨key, hhistory⟩ := (Run.store hr).history k hk
    have hcipher : k.cipher = key.cipher := by rw [hhistory.origin]; rfl
    rw [installs, List.filterMap_append, accepts_concat_some haccepted, hcipher]
    exact ⟨key, List.mem_append_left _ hhistory.installed,
      List.mem_append_right _ List.mem_cons_self⟩
  · rintro τ s action s' e - - ⟨key, hkey, hn⟩
    rw [installs, accepts, List.filterMap_append, List.filterMap_append]
    exact ⟨key, List.mem_append_left _ hkey, List.mem_append_left _ hn⟩

/-- **No packet is accepted twice against an entry.** -/
theorem Run.acceptedPackets_nodup (h : Run own hasSetKey hasDelKey τ s) :
    (acceptedPackets τ).Nodup := by
  refine Lts.Run.nodup_events h ?_
  rintro τ t τ' ⟨o, packet⟩ hτ hp hin
  obtain ⟨hr, hs⟩ := h.split hτ
  obtain ⟨k, hk, rfl, haccepted⟩ := acceptedPacket_eq_some hr hs hp
  obtain ⟨key, hhistory⟩ := (Run.store hr).history k hk
  have hcipher : k.cipher = key.cipher := by rw [hhistory.origin]; rfl
  -- the packet would have the number that it had the first time
  obtain ⟨key', hkey', hn⟩ := Run.accepted_number hr _ hin
  cases List.inj_on_of_nodup_map (Run.store hr).installs_nodup hkey' hhistory.installed rfl
  rw [hcipher] at haccepted
  have hkey : (k.object, key) ∈ installs (τ ++ [t]) := by
    rw [installs, List.filterMap_append]
    exact List.mem_append_left _ hhistory.installed
  have hincreasing := ((Run.store (hr.snoc hs)).numbers _ _ hkey).accepted
  rw [accepts_concat_some haccepted, Log.of_concat_self, ← List.cons_append,
    List.pairwise_append] at hincreasing
  have hlt := hincreasing.2.2 _ (List.mem_cons_of_mem _ (Log.mem_of_iff.mpr hn)) _
    List.mem_cons_self
  exact absurd hlt (Nat.lt_irrefl _)

/-- A packet that is not accepted changes no entry. -/
theorem keys_of_rejected (hs : step action s = some s') (hr : Receives ⟨s, action, s'⟩)
    (ha : accepted ⟨s, action, s'⟩ = none) : s'.device.keys = s.device.keys := by
  obtain ⟨i, outcome, c, packet, haction, hc, hpacket⟩ := hr
  dsimp only at haction hc
  subst haction
  rw [step, hc] at hs
  obtain ⟨c', s₁, hstep, rfl⟩ := stepCall_eq_some hs
  cases hstep with
  | noKeyIndex => rfl
  | keyIndexRead => rfl
  | rxCipherSelected => rfl
  | rejected => rfl
  | accepted hrx =>
    obtain ⟨k, sequence, hentry, -, -, -, -⟩ := processCipherRx_takes hrx
    rw [accepted_advance hc, Call.accepts, hrx, hentry] at ha
    cases ha
  | _ => cases hpacket

/-- **Replay protection.** The packet numbers that an entry accepts increase from the one that it
has been installed with on, so no packet is accepted twice; `rx_sequence` is the largest of them;
and a packet that is not accepted leaves it as it is. -/
theorem replay_protection (h : Run own hasSetKey hasDelKey τ s) :
    (∀ o key, (o, key) ∈ installs τ →
      (leValue key.rxSequence.toList :: Log.of (accepts τ) o).Pairwise (· < ·)) ∧
    (acceptedPackets τ).Nodup ∧
    (∀ k ∈ s.device.keys, ∃ key, (k.object, key) ∈ installs τ ∧
      IsGreatest {n | n ∈ leValue key.rxSequence.toList :: Log.of (accepts τ) k.object}
        (leValue k.rxSequence.toList)) ∧
    ∀ t ∈ τ, Receives t → accepted t = none → t.after.device.keys = t.before.device.keys := by
  refine ⟨?_, h.acceptedPackets_nodup, ?_, ?_⟩
  · intro o key hin
    exact (h.store.numbers o key hin).accepted
  · intro k hk
    obtain ⟨key, hhistory⟩ := h.store.history k hk
    refine ⟨key, hhistory.installed, ?_⟩
    rw [hhistory.last]
    exact Log.isGreatest_getLastD hhistory.accepted
  · intro t ht hreceives haccepted
    exact keys_of_rejected (h.of_mem t ht).2 hreceives haccepted

open KeyStore.Scenario in
theorem replay_protection_twice :
    accepts (Lts.trace step receivedTwice start) = [(0, 1)] ∧
      (acceptedPackets (Lts.trace step receivedTwice start)).Nodup := by
  obtain ⟨s, hs⟩ := Option.isSome_iff_exists.mp
    (show (Lts.exec step receivedTwice start).isSome = true by decide +kernel)
  obtain ⟨-, hnodup, -, -⟩ := replay_protection (Lts.exec_run hs)
  exact ⟨by decide +kernel, hnodup⟩

/-! ## Transmitted frames -/

/-- A call gets to the section of a cipher, which looks up an entry. -/
def attempted (t : Transition) : Option (Nat × KeyMetadata) :=
  match t.action with
  | .advance i _ =>
    match t.before.calls[i]? with
    | some (.transmitPrepare header _ key cipher) =>
      (transmitEntry t.before.device.macAddress t.before.device.keys header key cipher).map
        fun k => (i, k)
    | _ => none
  | _ => none

/-- A call hands a frame over to the driver. -/
def handedOver (t : Transition) : Option (Nat × TxBufferDescriptor × TransmitOptions) :=
  match t.action with
  | .advance i _ =>
    match t.before.calls[i]?, t.after.calls[i]? with
    | some (.transmitFrame _ _ _ _), some (.consumed (.transmitted d options)) =>
      some (i, d, options)
    | _, _ => none
  | _ => none

/-- The packet number that can be read from the cipher header of a frame. -/
def readableNumber (d : TxBufferDescriptor) (options : TransmitOptions) : Nat :=
  cipherNumber options.cipher (d.content.drop 24)

/-- What a call stands at when it gets to the section of a cipher. -/
theorem attempted_eq_some {t : Transition} {i : Nat} {k : KeyMetadata}
    (h : attempted t = some (i, k)) :
    ∃ outcome header d key cipher, t.action = .advance i outcome ∧
      t.before.calls[i]? = some (.transmitPrepare header d key cipher) ∧
      transmitEntry t.before.device.macAddress t.before.device.keys header key cipher =
        some k := by
  unfold attempted at h
  split at h
  · next i' outcome haction =>
    split at h
    · next header d key cipher hc =>
      obtain ⟨k', hentry, he⟩ := Option.map_eq_some_iff.mp h
      cases he
      exact ⟨outcome, header, d, key, cipher, haction, hc, hentry⟩
    · cases h
  · cases h

/-- What a call stands at when it hands a frame over, and what it stands at then. -/
theorem handedOver_eq_some {t : Transition} {i : Nat} {d : TxBufferDescriptor}
    {options : TransmitOptions} (h : handedOver t = some (i, d, options)) :
    ∃ outcome header d₀ options₀ draw, t.action = .advance i outcome ∧
      t.before.calls[i]? = some (.transmitFrame header d₀ options₀ draw) ∧
      t.after.calls[i]? = some (.consumed (.transmitted d options)) := by
  unfold handedOver at h
  split at h
  · next i' outcome haction =>
    split at h
    · next header d₀ options₀ draw d₁ options₁ hc hnext =>
      cases h
      exact ⟨outcome, header, d₀, options₀, draw, haction, hc, hnext⟩
    · cases h
  · cases h

section Transmit

variable {i : Nat} {outcome : Outcome} {header : HeaderDescription} {d : TxBufferDescriptor}
  {key : UInt8} {cipher : Option Cipher} {k : KeyMetadata} {options : TransmitOptions}

theorem mem_of_transmitEntry {keys : List KeyMetadata}
    (h : transmitEntry own keys header key cipher = some k) :
    k ∈ keys ∧ (cipher = some .ccmp ∨ cipher = some .tkip) := by
  unfold transmitEntry at h
  split at h
  · exact ⟨List.mem_of_find?_eq_some h, Or.inl rfl⟩
  · exact ⟨List.mem_of_find?_eq_some h, Or.inr rfl⟩
  · cases h

/-- With its counter at the maximum an entry gives no number away. -/
theorem stepCall_of_max {log : List Draw}
    (hc : Call.Sound log (.transmitPrepare header d key cipher))
    (hs : stepCall s i outcome (.transmitPrepare header d key cipher) = some s')
    (hentry : transmitEntry s.device.macAddress s.device.keys header key cipher = some k)
    (hmax : 2 ^ 48 - 1 ≤ leValue k.txSequence.toList) :
    (∃ d', s'.calls = s.calls.set i (.consumed (.freed d' .notPermitted))) ∧
      s'.device.keys = s.device.keys := by
  obtain ⟨r, he, hprepared⟩ := prepareCipherTx_prepared s.device key hc.2 cipher
  rw [stepCall, he] at hs
  cases hprepared with
  | refused d' status hr hstatus =>
    subst hr
    cases hs
    rw [hstatus (mem_of_transmitEntry hentry).2]
    exact ⟨⟨d', rfl⟩, rfl⟩
  | sent device' d' draw hr _ _ =>
    subst hr
    obtain ⟨k', sequence, hgives⟩ := prepareCipherTx_gives he
    cases hentry.symm.trans hgives.entry
    have hlt := increment_isSome_iff.mp ⟨sequence, hgives.next⟩
    omega

/-- The frame that the driver gets carries the number that the call has drawn. -/
theorem stepCall_of_transmitted {log : List Draw} {draw : Option Draw}
    {options' : TransmitOptions} {d' : TxBufferDescriptor}
    (hc : Call.Sound log (.transmitFrame header d options draw))
    (hs : stepCall s i outcome (.transmitFrame header d options draw) = some s')
    (hlt : i < s.calls.length)
    (hnext : s'.calls[i]? = some (.consumed (.transmitted d' options'))) :
    options' = options ∧ (options.key ≠ none → ∃ e, draw = some e ∧ log = [e] ∧
      readableNumber d' options = e.number) := by
  obtain ⟨hlog, hframed⟩ := hc
  obtain ⟨d₁, he, hholds, -⟩ :=
    transmitFrame_spec s.device options hframed.header hframed.holds hframed.headroom
  rw [stepCall, he] at hs
  cases hs
  have hnext : (s.calls.set i (.consumed (.transmitted d₁ options)))[i]? =
    some (.consumed (.transmitted d' options')) := hnext
  rw [List.getElem?_set_self hlt] at hnext
  cases hnext
  refine ⟨rfl, ?_⟩
  intro hkey
  cases hdraw : draw with
  | none =>
    rw [hframed.plain hdraw] at hkey
    exact absurd rfl hkey
  | some e =>
    refine ⟨e, rfl, ?_, ?_⟩
    · rw [hlog, hdraw]
      rfl
    · rw [readableNumber, hholds.content, List.drop_left' header.length_bytes]
      exact (hframed.number e hdraw).2

end Transmit

/-- **Packet numbers are given away once.** Each entry gives 1, 2, 3 and so on away, and
`tx_sequence` is the last of them; when there is none left, a call is refused and the entry is left
as it is; and a frame that the driver gets carries the one number that has been drawn for it. -/
theorem transmit_numbers (h : Run own hasSetKey hasDelKey τ s) :
    (∀ o key, (o, key) ∈ installs τ →
      ∃ n < 2 ^ 48, Log.of (draws τ) o = List.range' 1 n) ∧
    (∀ k ∈ s.device.keys,
      Log.of (draws τ) k.object = List.range' 1 (leValue k.txSequence.toList)) ∧
    ∀ τ₁ t τ₂, τ = τ₁ ++ t :: τ₂ →
      (∀ i k, attempted t = some (i, k) → (k.object, 2 ^ 48 - 1) ∈ draws τ₁ →
        (∃ d, t.after.calls[i]? = some (.consumed (.freed d .notPermitted))) ∧
          t.after.device.keys = t.before.device.keys) ∧
      ∀ i d options, handedOver t = some (i, d, options) → options.key ≠ none →
        ∃ e, Log.of (callDraws τ₁) i = [e] ∧ readableNumber d options = e.number := by
  refine ⟨?_, ?_, ?_⟩
  · intro o key hin
    exact (h.store.numbers o key hin).drawn
  · intro k hk
    obtain ⟨key, hhistory⟩ := h.store.history k hk
    exact hhistory.drawn
  · intro τ₁ t τ₂ hτ
    obtain ⟨hbefore, hstep⟩ := h.split hτ
    have hpositions := Run.positions hbefore
    refine ⟨?_, ?_⟩
    · intro i k hattempted hin
      obtain ⟨outcome, header, d, key, cipher, haction, hc, hentry⟩ :=
        attempted_eq_some hattempted
      rw [haction, step, hc] at hstep
      obtain ⟨key', hhistory⟩ :=
        (Run.store hbefore).history k (mem_of_transmitEntry hentry).1
      have hmax : 2 ^ 48 - 1 ≤ leValue k.txSequence.toList := by
        have hdrawn := Log.mem_of_iff.mpr hin
        rw [hhistory.drawn, List.mem_range'_1] at hdrawn
        omega
      obtain ⟨⟨d', hcalls⟩, hkeys⟩ :=
        stepCall_of_max (hpositions.sound _ _ hc) hstep hentry hmax
      refine ⟨⟨d', ?_⟩, hkeys⟩
      rw [hcalls, List.getElem?_set_self (List.getElem?_eq_some_iff.mp hc).1]
    · intro i d options hover hkey
      obtain ⟨outcome, header, d₀, options₀, draw, haction, hc, hnext⟩ :=
        handedOver_eq_some hover
      rw [haction, step, hc] at hstep
      obtain ⟨rfl, hnumber⟩ := stepCall_of_transmitted (hpositions.sound _ _ hc) hstep
        (List.getElem?_eq_some_iff.mp hc).1 hnext
      obtain ⟨e, -, hlog, hread⟩ := hnumber hkey
      exact ⟨e, hlog, hread⟩

open KeyStore.Scenario in
theorem transmit_numbers_twice :
    draws (Lts.trace step transmittedTwice start) = [(0, 1), (0, 2)] ∧
      ∀ o key, (o, key) ∈ installs (Lts.trace step transmittedTwice start) →
        ∃ n < 2 ^ 48, Log.of (draws (Lts.trace step transmittedTwice start)) o =
          List.range' 1 n := by
  obtain ⟨s, hs⟩ := Option.isSome_iff_exists.mp
    (show (Lts.exec step transmittedTwice start).isSome = true by decide +kernel)
  obtain ⟨hnumbers, -, -⟩ := transmit_numbers (Lts.exec_run hs)
  exact ⟨by decide +kernel, hnumbers⟩

end KeyStore

end U80211
