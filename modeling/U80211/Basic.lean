import U80211.Lib.Memory

/-!
# Types and constants shared by all of the library

Statuses, MAC addresses, the 802.11 header description with its frame-control macros, device
states and access points, under the names of the headers in `include/u80211`.
-/

namespace U80211

open Memory

/-- The `U80211_STATUS_*` codes, and any other code that a driver operation returns. -/
inductive Status where
  | success
  | enomem
  | unsupported
  | notEnoughSpace
  | busy
  | notPermitted
  | retry
  | rejected
  | timedOut
  | notAssociated
  | unknownError
  | driver (code : Int)
deriving DecidableEq

/-- `u80211_mac_address_t` -/
abbrev MacAddress := FixedBytes 6

/-- The loop of `u80211_mac_address_equal`. -/
def bytesEqual : List UInt8 → List UInt8 → Bool
  | a :: as, b :: bs => if a ≠ b then false else bytesEqual as bs
  | _, _ => true

/-- `u80211_mac_address_equal` -/
def macAddressEqual (a b : MacAddress) : Bool := bytesEqual a.toList b.toList

theorem bytesEqual_iff {as bs : List UInt8} (h : as.length = bs.length) :
    bytesEqual as bs = true ↔ as = bs := by
  induction as generalizing bs with
  | nil =>
    rw [List.eq_nil_of_length_eq_zero h.symm]
    simp [bytesEqual]
  | cons a as ih =>
    cases bs with
    | nil => cases h
    | cons b bs =>
      rw [bytesEqual]
      split
      · next hne => simp [hne]
      · next heq =>
        rw [ih (Nat.succ.inj h), List.cons.injEq]
        constructor
        · intro he
          exact ⟨Decidable.not_not.mp heq, he⟩
        · rintro ⟨-, he⟩
          exact he

@[simp] theorem macAddressEqual_iff {a b : MacAddress} : macAddressEqual a b = true ↔ a = b := by
  rw [macAddressEqual, bytesEqual_iff (by rw [a.length_toList, b.length_toList]),
    FixedBytes.ext_iff']

@[simp] theorem macAddressEqual_false_iff {a b : MacAddress} :
    macAddressEqual a b = false ↔ a ≠ b := by
  rw [← Bool.not_eq_true, macAddressEqual_iff]

/-- `{ .bytes = { 0xff, 0xff, 0xff, 0xff, 0xff, 0xff } }` -/
def broadcastAddress : MacAddress := ⟨List.replicate 6 0xff, rfl⟩

/-- The group bit of an address, `bytes[0] & 1`. -/
def MacAddress.isGroup (a : MacAddress) : Bool := a.toList.headD 0 &&& 1 != 0

/-- `u80211_header_description_t`; `address1` to `address4` are `addresses[0]` to
`addresses[3]`. -/
structure HeaderDescription where
  frameControl : UInt16
  durationId : UInt16
  address1 : MacAddress
  address2 : MacAddress
  address3 : MacAddress
  address4 : MacAddress
  sequenceControl : UInt16
deriving DecidableEq

/-- `(x & mask) != 0` -/
def hasFlag (frameControl mask : UInt16) : Bool := frameControl &&& mask != 0

/-! ## Frame control -/

/-- `U80211_HEADER_FRAME_CONTROL_GET_TYPE` -/
def frameControlGetType (x : UInt16) : UInt16 := (x &&& 0xc) >>> 2

def frameControlTypeManagement : UInt16 := 0
def frameControlTypeControl : UInt16 := 1
def frameControlTypeData : UInt16 := 2

/-- `U80211_HEADER_FRAME_CONTROL_GET_SUBTYPE` -/
def frameControlGetSubtype (x : UInt16) : UInt16 := (x &&& 0xf0) >>> 4

def frameControlSubtypeAssociationResponse : UInt16 := 1
def frameControlSubtypeProbeResponse : UInt16 := 5
def frameControlSubtypeDisassociation : UInt16 := 10
def frameControlSubtypeAuthentication : UInt16 := 11
def frameControlSubtypeDeauthentication : UInt16 := 12
def frameControlSubtypeData : UInt16 := 0
def frameControlSubtypeNullData : UInt16 := 4

def frameControlToDs : UInt16 := 0x100
def frameControlFromDs : UInt16 := 0x200
def frameControlRetry : UInt16 := 0x800
def frameControlProtectedFrame : UInt16 := 0x4000

/-! ## Devices and access points -/

/-- `U80211_DEVICE_STATE_*` -/
inductive DeviceState where
  | down
  | scanning
  | authenticating
  | associating
  | associated
  | deauthenticating
deriving DecidableEq, Repr

/-- An attempt to associate is under way. -/
def DeviceState.inProgress : DeviceState → Bool
  | .authenticating | .associating => true
  | _ => false

/-- `u80211_ap_t` without its counter and tree node: what never changes once it is allocated.
`object` stands for the address of the structure, so that two access points with the same
contents are told apart. -/
structure AccessPoint where
  object : Nat
  macAddress : MacAddress
  interval : UInt16
  capabilities : UInt16
  channel : UInt8
  rateBitmap : FixedBytes 16
  ssid : FixedBytes 33
  rsn : List UInt8
deriving DecidableEq

end U80211
