import U80211.Properties.Consistency
import U80211.Properties.ReceivePath

/-!
# Packets of other stations

* `foreign_packet_ignored`: a packet that does not come from the selected access point, or that is
  a management frame of the wrong addresses, leaves the association as it is
-/

namespace U80211

open Memory

/-- The frame is a deauthentication or a disassociation. -/
def HeaderDescription.isTeardown (header : HeaderDescription) : Prop :=
  frameControlGetSubtype header.frameControl = frameControlSubtypeDeauthentication ∨
    frameControlGetSubtype header.frameControl = frameControlSubtypeDisassociation

/-- The packet does not come from the selected access point, or it is a management frame that the
handlers do not take for the device. -/
def Foreign (device : Device) (header : HeaderDescription) : Prop :=
  (∀ ap, device.association.ap = some ap → header.address2 ≠ ap.macAddress) ∨
    frameControlGetType header.frameControl = frameControlTypeManagement ∧
      (header.address2 ≠ header.address3 ∨
        header.address1 ≠ device.macAddress ∧
          (header.isTeardown → header.address1 ≠ broadcastAddress))

variable {a : Association} {header : HeaderDescription}

theorem apHasAddress_eq_false {address : MacAddress}
    (h : ∀ ap, a.ap = some ap → address ≠ ap.macAddress) : apHasAddress a address = false := by
  unfold apHasAddress
  split
  · rfl
  · next ap hap => exact macAddressEqual_false_iff.mpr (h ap hap).symm

theorem associationIsDuplicate_of_foreign {expectedState : DeviceState}
    (h : ∀ ap, a.ap = some ap → header.address2 ≠ ap.macAddress) :
    associationIsDuplicate a header expectedState = (false, a) := by
  unfold associationIsDuplicate
  rw [if_neg]
  rw [apHasAddress_eq_false h]
  simp

/-- The address that a message comes from. -/
def Message.address : Message → MacAddress
  | .authentication d => d.address
  | .response d => d.address
  | .deauthentication d => d.address
  | .disassociation d => d.address

/-- No message from another address than the access point's changes anything. -/
theorem associationProcess_of_foreign (hc : a.Consistent) {message : Message}
    (h : ∀ ap, a.ap = some ap → message.address ≠ ap.macAddress) :
    associationProcess a message = .unchanged a := by
  have hap := apHasAddress_eq_false h
  cases message with
  | authentication d =>
    simp only [Message.address] at hap
    simp [associationProcess, associationProcessAuthentication, hap]
  | response d =>
    simp only [associationProcess, associationProcessResponse]
    split
    · next c ap hcx _ =>
      have hne : c.ap.macAddress ≠ d.address := (h c.ap (hc.context_ap c hcx)).symm
      rw [macAddressEqual_false_iff.mpr hne]
      rfl
    · rfl
  | deauthentication d =>
    simp only [Message.address] at hap
    simp [associationProcess, associationProcessTeardown, hap]
  | disassociation d =>
    simp only [Message.address] at hap
    simp [associationProcess, associationProcessTeardown, hap]

/-- Not foreign by its sender, a management frame is foreign by its addresses, and its handler
drops it. -/
theorem foreign_sender {device : Device} (hf : Foreign device header)
    (h23 : header.address2 = header.address3)
    (h1 : header.address1 = device.macAddress ∨
      header.isTeardown ∧ header.address1 = broadcastAddress) :
    ∀ ap, device.association.ap = some ap → header.address2 ≠ ap.macAddress := by
  rcases hf with hf | ⟨-, hne | ⟨hown, hbroadcast⟩⟩
  · exact hf
  · exact absurd h23 hne
  · rcases h1 with h1 | ⟨ht, h1⟩
    · exact absurd h1 hown
    · exact absurd h1 (hbroadcast ht)

/-- What is done for a foreign management frame after its checks changes nothing. -/
theorem runPlan_of_foreign {device : Device} (hc : device.association.Consistent)
    (hf : Foreign device header) {data : List UInt8} {plan : ManagementPlan}
    (hp : Checked device.macAddress header data plan) :
    ∃ effects, runPlan device header plan = (device, effects) ∧
      ∀ e ∈ effects, e.isAssociationWork = false := by
  have hmessage : header.address2 = header.address3 →
      (∀ ap, device.association.ap = some ap → header.address2 ≠ ap.macAddress) →
      ∀ message : Message, message.address = header.address3 →
        ∀ ap, device.association.ap = some ap → message.address ≠ ap.macAddress := by
    intro h23 hs message hm ap hap
    rw [hm, ← h23]
    exact hs ap hap
  cases hp with
  | ignore => exact ⟨[], rfl, fun e he => (List.not_mem_nil he).elim⟩
  | scan =>
    refine ⟨_, rfl, ?_⟩
    intro e he
    rw [List.mem_singleton] at he
    subst he
    rfl
  | @authentication d _ hd ha =>
    obtain ⟨h23, h1⟩ := managementPacketForDevice_iff.mp hd
    have hs := foreign_sender hf h23 (Or.inl h1)
    refine ⟨[], ?_, fun e he => (List.not_mem_nil he).elim⟩
    rw [runPlan, associationIsDuplicate_of_foreign hs]
    dsimp only
    rw [associationProcess_of_foreign hc (hmessage h23 hs (.authentication d) ha)]
    rfl
  | @response d _ hd ha =>
    obtain ⟨h23, h1⟩ := managementPacketForDevice_iff.mp hd
    have hs := foreign_sender hf h23 (Or.inl h1)
    refine ⟨[], ?_, fun e he => (List.not_mem_nil he).elim⟩
    rw [runPlan, associationIsDuplicate_of_foreign hs]
    dsimp only
    rw [associationProcess_of_foreign hc (hmessage h23 hs (.response d) ha)]
    rfl
  | @deauthentication d hsub hd ha =>
    obtain ⟨h23, h1⟩ := managementPacketForDeviceOrBroadcast_iff.mp hd
    have hs := foreign_sender hf h23 (h1.imp id fun h => ⟨Or.inl hsub, h⟩)
    refine ⟨[], ?_, fun e he => (List.not_mem_nil he).elim⟩
    rw [runPlan, associationProcess_of_foreign hc (hmessage h23 hs (.deauthentication d) ha)]
    rfl
  | @disassociation d hsub hd ha =>
    obtain ⟨h23, h1⟩ := managementPacketForDeviceOrBroadcast_iff.mp hd
    have hs := foreign_sender hf h23 (h1.imp id fun h => ⟨Or.inr hsub, h⟩)
    refine ⟨[], ?_, fun e he => (List.not_mem_nil he).elim⟩
    rw [runPlan, associationProcess_of_foreign hc (hmessage h23 hs (.disassociation d) ha)]
    rfl

section Accepted

variable {device : Device} {packet : List UInt8} {rx : CipherRx}

/-- Removing the cipher header leaves a packet foreign: it changes the keys only. -/
theorem Accepted.foreign (ha : Accepted device packet header rx)
    (hf : ∀ r, deserializeHeader packet = some (.ok r) → Foreign device r.header) :
    Foreign rx.1 header := by
  obtain ⟨r, hr, rfl, -⟩ := ha.read
  rw [ha.device]
  exact hf r hr

/-- A data frame is foreign by its sender. -/
theorem Accepted.foreign_data (ha : Accepted device packet header rx)
    (hf : ∀ r, deserializeHeader packet = some (.ok r) → Foreign device r.header)
    (ht : frameControlGetType header.frameControl = frameControlTypeData) :
    ∀ ap, rx.1.association.ap = some ap → header.address2 ≠ ap.macAddress := by
  rcases ha.foreign hf with h | ⟨h, -⟩
  · exact h
  · rw [ht] at h
    cases h

end Accepted

/-- **Stations other than the selected access point cannot influence the association.** In every
reachable state a foreign packet of any bytes is handled without a change to the guarded fields and
without queueing work of the association machine. -/
theorem foreign_packet_ignored {ownAddress : MacAddress} {s : System}
    (hs : Reachable ownAddress s) {device : Device} (hd : device.association = s.association)
    (packet : List UInt8)
    (hf : ∀ r, deserializeHeader packet = some (.ok r) → Foreign device r.header) :
    ∃ device' effects, processPacket device packet = some (device', effects) ∧
      device'.association = device.association ∧
      ∀ e ∈ effects, e.isAssociationWork = false := by
  have hc : device.association.Consistent := by
    rw [hd]
    exact hs.consistent
  obtain ⟨device', effects, hp, hreceived⟩ := processPacket_received device packet
  refine ⟨device', effects, hp, ?_⟩
  cases hreceived with
  | malformed _ => exact ⟨rfl, by simp⟩
  | rejected _ _ => exact ⟨rfl, by simp⟩
  | unhandled ha _ _ => exact ⟨ha.association, by simp⟩
  | misaddressed ha _ _ => exact ⟨ha.association, by simp⟩
  | @management header rx plan ha _ hplan =>
    have hc' : rx.1.association.Consistent := by rw [ha.association]; exact hc
    obtain ⟨effects, he, hw⟩ :=
      runPlan_of_foreign hc' (ha.foreign hf) (processManagementPacket_checked hplan)
    rw [he]
    exact ⟨ha.association, hw⟩
  | duplicate ha ht _ hdup =>
    rw [associationIsDuplicate_of_foreign (ha.foreign_data hf ht)] at hdup
    cases hdup
  | @data header rx association frame ha ht _ hdup _ =>
    rw [associationIsDuplicate_of_foreign (ha.foreign_data hf ht)] at hdup
    cases hdup
    refine ⟨ha.association, ?_⟩
    intro e he
    obtain ⟨frame, -, rfl⟩ := List.mem_map.mp he
    rfl

/-- The bytes of a frame. -/
def Scenario.packet (frame : Frame) : List UInt8 := frame.header.bytes ++ frame.data

open Scenario in
theorem foreign_packet_ignored_authentication :
    ∃ s device' effects, Scenario.run (join 0 2) = some s ∧
      s.association.state = .authenticating ∧
      processPacket (station 1 s.association []) (packet (authentication 3 0)) =
        some (device', effects) ∧
      device'.association = s.association ∧ ∀ e ∈ effects, e.isAssociationWork = false := by
  have hrun : (run (join 0 2)).map
      (fun s => (s.association.state, s.association.ap)) =
        some (.authenticating, some (accessPoint 2)) := by decide
  obtain ⟨s, hs, he⟩ := exists_of_run hrun
  rw [Prod.mk.injEq] at he
  have hforeign : ∀ r, deserializeHeader (packet (authentication 3 0)) = some (.ok r) →
      Foreign (station 1 s.association []) r.header := by
    intro r hr
    have hsender : r.header.address2 = mac 3 := by
      cases hr
      rfl
    refine Or.inl ?_
    intro ap hap
    rw [hsender]
    cases he.2.symm.trans hap
    decide
  have hd : (station 1 s.association []).association = s.association := rfl
  obtain ⟨device', effects, hp, hassoc, hwork⟩ :=
    foreign_packet_ignored (reachable_of_run hs) hd (packet (authentication 3 0)) hforeign
  exact ⟨s, device', effects, hs, he.1, hp, hassoc, hwork⟩

end U80211
