import U80211.Properties.Delivery
import U80211.Properties.Records
import U80211.Properties.Requests

/-!
# From a probe response to an association request

* `processProbeResponse_spec`: the beacon data are the meaning of the response
* `ssidElement_body`: the SSID is encoded again up to its first `NUL`
* `ssid_survives_up_to_nul`: **what of an SSID survives**
-/

namespace U80211

open Memory TxBufferDescriptor Tlv

/-! ## The response -/

/-- What the beacon data say about the elements of a response. -/
structure BeaconData.Describes (beacon : BeaconData) (es : List Element) : Prop where
  rates : ∀ rate, hasRate beacon.rateBitmap rate = true ↔
    ∃ e ∈ es, CarriesRates e ∧ ∃ b ∈ e.body, NamesRate rate b
  ssid : match last ieIdSsid es with
    | none => beacon.ssid = .zero 33
    | some e => slice beacon.ssid.toList 0 (e.body.length + 1) = e.body ++ [0]
  channel : match last ieIdChannel es with
    | none => beacon.channel = 0
    | some e => e.body = [beacon.channel]
  rsn : beacon.rsn = ((last ieIdRsn es).map Element.body).getD []

/-- **The beacon data of a response are the meaning of its elements.** -/
theorem processProbeResponse_spec {own : MacAddress} {header : HeaderDescription}
    {data : List UInt8} {beacon : BeaconData}
    (h : processProbeResponse own header data = some (.scanProcessResponse beacon)) :
    ∃ es, data.drop 12 = encodeAll es ∧ (∀ e ∈ es, Admitted e) ∧ beacon.Describes es ∧
      beacon.macAddress = header.address3 := by
  unfold processProbeResponse at h
  split at h
  · cases h
  · next hlen =>
    split at h
    · cases h
    · simp only [Option.bind_eq_bind, Option.bind_eq_some_iff] at h
      obtain ⟨interval, -, capabilities, -, size, hsize, body, hbody, elements, helements, h⟩ := h
      have hbytes : body.toList = data.drop 12 := by
        obtain ⟨-, hslice⟩ := readBytes_eq_some hbody
        rw [subtractSize_of_le (Nat.not_lt.mp hlen)] at hsize
        cases hsize
        rw [hslice, slice, ← List.length_drop, List.take_length]
      rw [hbytes] at helements h
      rcases processInformationElements_spec .zeroed (data.drop 12) with
        ⟨es, out, hes, hadmitted, hr, hm⟩ | ⟨hr, -⟩
      · cases helements.symm.trans hr
        cases h
        refine ⟨es, hes, hadmitted, ?_, rfl⟩
        obtain ⟨ssid, hssid⟩ := Option.isSome_iff_exists.mp hm.sameSsid
        obtain ⟨channel, hchannel⟩ := Option.isSome_iff_exists.mp hm.sameChannel
        obtain ⟨p, hp⟩ := Option.isSome_iff_exists.mp hm.sameRsn
        refine ⟨hm.rates_of_zeroed zeroed_zeroed, ?_, ?_, ?_⟩
        · have hmeans := (hm.ssid ssid hssid).of_zeroed zeroed_zeroed
          rw [hssid]
          exact hmeans
        · have hmeans := (hm.channel channel hchannel).of_zeroed zeroed_zeroed
          rw [hchannel]
          exact hmeans
        · have hmeans := (hm.rsn p hp).of_zeroed zeroed_zeroed
          rw [hp]
          cases hlast : last ieIdRsn es with
          | none =>
            rw [hlast] at hmeans
            rw [hmeans]
            rfl
          | some e =>
            rw [hlast] at hmeans
            obtain ⟨-, off, rfl, hslice⟩ := hmeans
            rw [hes]
            exact hslice
      · cases helements.symm.trans hr
        cases h

/-! ## The access point -/

/-- The access point is one that `u80211_ap_allocate` makes of what the ring buffer has kept of the
beacon data, to which it may belong a channel of the scan. -/
def BeaconData.Becomes (beacon : BeaconData) (ap : AccessPoint) : Prop :=
  ∃ channel pointer head size object,
    readBeacon ((beacon.stamped channel).bytes pointer) = some (head, size) ∧
      ap = ({ head with rsn := beacon.rsn } : BeaconData).accessPoint object

/-- An RSN element is short enough for the record. -/
theorem BeaconData.Describes.length_rsn {beacon : BeaconData} {es : List Element}
    (h : beacon.Describes es) : beacon.rsn.length < 256 := by
  rw [h.rsn]
  cases last ieIdRsn es with
  | none => exact Nat.zero_lt_succ _
  | some e => exact e.fits

theorem BeaconData.Becomes.ssid {beacon : BeaconData} {ap : AccessPoint} (h : beacon.Becomes ap)
    (hrsn : beacon.rsn.length < 256) : ap.ssid = beacon.ssid := by
  obtain ⟨channel, pointer, head, size, object, hread, rfl⟩ := h
  have hshort : (beacon.stamped channel).rsn.length < 2 ^ 64 := by
    show beacon.rsn.length < 2 ^ 64
    omega
  rw [readBeacon_bytes _ _ hshort] at hread
  cases hread
  rfl

/-! ## The request -/

/-- The buffer is the body, a `NUL` and what follows it. -/
theorem exists_rest_of_slice {ssid : FixedBytes 33} {s : List UInt8}
    (h : slice ssid.toList 0 (s.length + 1) = s ++ [0]) :
    ∃ rest, ssid.toList = s ++ 0 :: rest := by
  refine ⟨ssid.toList.drop (s.length + 1), ?_⟩
  have hsplit := List.take_append_drop (s.length + 1) ssid.toList
  rw [show ssid.toList.take (s.length + 1) = s ++ [0] from h, List.append_assoc] at hsplit
  exact hsplit.symm

/-- **The SSID is encoded again up to its first `NUL`.** -/
theorem ssidElement_body {beacon : BeaconData} {es : List Element} {e : Element}
    {ap : AccessPoint} (hdescribes : beacon.Describes es) (hlast : last ieIdSsid es = some e)
    (hbecomes : beacon.Becomes ap) :
    (ssidElement ap.ssid).body = e.body.takeWhile (· ≠ 0) := by
  have hssid := hdescribes.ssid
  rw [hlast] at hssid
  obtain ⟨rest, hrest⟩ := exists_rest_of_slice hssid
  rw [hbecomes.ssid hdescribes.length_rsn]
  exact take_ssidSize hrest

/-- **An SSID survives up to its first `NUL`**: for a response whose last SSID element has the body
`e.body`, the association request for the access point that is made of it carries this body up to
the first `NUL`, which is the whole of it if and only if it has none. -/
theorem ssid_survives_up_to_nul {own : MacAddress} {header : HeaderDescription}
    {data : List UInt8} {beacon : BeaconData} {es : List Element} {e : Element}
    {ap : AccessPoint} {driver : Driver} {s : Ops} (rateBitmap : FixedBytes 16) (u : List UInt8)
    (hresponse : processProbeResponse own header data = some (.scanProcessResponse beacon))
    (helements : data.drop 12 = encodeAll es) (hlast : last ieIdSsid es = some e)
    (hbecomes : beacon.Becomes ap) (hap : s.device.association.ap = some ap)
    (hprovides :
      driver.Provides (managementHeaderSize + associationRequestDataSize ap rateBitmap u)) :
    ∃ (body : List UInt8) (e' : Element) (rest : List UInt8), SendsFrame driver s
        (managementHeader s.device ap.macAddress frameControlSubtypeAssociationRequest) body
        (sendAssociationRequest driver s rateBitmap u) ∧
      body.drop associationRequestFixedSize = e'.encode ++ rest ∧ e'.id = ieIdSsid ∧
      e'.body = e.body.takeWhile (· ≠ 0) ∧ (e'.body = e.body ↔ 0 ∉ e.body) := by
  obtain ⟨es', hes', -, hdescribes, -⟩ := processProbeResponse_spec hresponse
  cases encodeAll_injective (helements.symm.trans hes')
  have hbody := ssidElement_body hdescribes hlast hbecomes
  refine ⟨_, ssidElement ap.ssid, encodeAll (rateElements rateBitmap) ++ u,
    sendAssociationRequest_spec hap rateBitmap u hprovides, ?_, rfl, hbody, ?_⟩
  · show encodeAll (associationRequestElements ap rateBitmap) ++ u = _
    rw [associationRequestElements, encodeAll_cons, List.append_assoc]
  · rw [hbody]
    exact takeWhile_eq_self_iff_not_mem

namespace Scenario

/-- An SSID of three octets, the second of which is a `NUL`. -/
def ssidWithNul : Element := ⟨ieIdSsid, [65, 0, 66], by decide⟩

/-- The body of a probe response with that SSID. -/
def probeResponse : List UInt8 := List.replicate 12 0 ++ encodeAll [ssidWithNul]

/-- What is read of it. -/
def ssidBeacon : BeaconData where
  macAddress := mac 2
  interval := 0
  capabilities := 0
  channel := 0
  rateBitmap := .zero 16
  ssid := ⟨[65, 0, 66] ++ List.replicate 30 0, by decide⟩
  rsn := []

/-- The access point that a scan on channel 6 makes of it. -/
def ssidAccessPoint : AccessPoint := (ssidBeacon.stamped 6).accessPoint 0

theorem becomes_ssidAccessPoint : ssidBeacon.Becomes ssidAccessPoint := by
  have hshort : (ssidBeacon.stamped 6).rsn.length < 2 ^ 64 := by decide
  exact ⟨6, ⟨.zero 4, .zero 8⟩, _, _, 0, readBeacon_bytes _ _ hshort, rfl⟩

theorem processProbeResponse_ssidBeacon :
    processProbeResponse (mac 1) (header frameControlSubtypeProbeResponse 2) probeResponse =
      some (.scanProcessResponse ssidBeacon) := rfl

end Scenario

open Scenario in
theorem ssid_survives_up_to_nul_cut :
    ∃ (body : List UInt8) (e' : Element) (rest : List UInt8),
      SendsFrame driver (requesting ssidAccessPoint)
        (managementHeader (station 1 .registered []) (mac 2) frameControlSubtypeAssociationRequest)
        body (sendAssociationRequest driver (requesting ssidAccessPoint) (.zero 16) []) ∧
      body.drop associationRequestFixedSize = e'.encode ++ rest ∧ e'.body = [65] := by
  obtain ⟨body, e', rest, hsends, hbody, -, he', -⟩ := ssid_survives_up_to_nul (.zero 16) []
    processProbeResponse_ssidBeacon rfl (show last ieIdSsid [ssidWithNul] = some _ from rfl)
    becomes_ssidAccessPoint (show (requesting ssidAccessPoint).device.association.ap = _ from rfl)
    (driver_provides _)
  exact ⟨body, e', rest, hsends, hbody, he'⟩

open Scenario in
/-- **An SSID with a `NUL` does not survive**: of the three octets of the response, the request
carries the first one only. -/
theorem ssid_with_nul_lost :
    ∃ beacon ap body, processProbeResponse (mac 1) (header frameControlSubtypeProbeResponse 2)
        (List.replicate 12 0 ++ [0, 3, 65, 0, 66]) = some (.scanProcessResponse beacon) ∧
      beacon.Becomes ap ∧
      SendsFrame driver (requesting ap)
        (managementHeader (requesting ap).device ap.macAddress
          frameControlSubtypeAssociationRequest) body
        (sendAssociationRequest driver (requesting ap) (.zero 16) []) ∧
      body.drop associationRequestFixedSize = [0, 1, 65, 1, 0] :=
  ⟨ssidBeacon, ssidAccessPoint, _, processProbeResponse_ssidBeacon, becomes_ssidAccessPoint,
    sendAssociationRequest_spec rfl (.zero 16) [] (driver_provides _), by decide⟩

end U80211
