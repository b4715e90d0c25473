import U80211.Association
import U80211.Key

/-!
# A device, as one packet after the other sees it

The fields of `u80211_device_t` that the transmit and receive paths use.
-/

namespace U80211

/-- `u80211_device_t` -/
structure Device where
  macAddress : MacAddress
  packetCount : UInt64
  txSequenceControl : UInt16
  keys : List KeyMetadata
  association : Association
  /-- how often an access point has been held, less how often it has been released -/
  references : AccessPoint → Int

namespace Device

/-- `u80211_ap_hold` -/
def hold (device : Device) (ap : AccessPoint) : Device :=
  { device with references := fun a => device.references a + if a = ap then 1 else 0 }

/-- `u80211_ap_release` -/
def release (device : Device) (ap : AccessPoint) : Device :=
  { device with references := fun a => device.references a - if a = ap then 1 else 0 }

end Device

end U80211
