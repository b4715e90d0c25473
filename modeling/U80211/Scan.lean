import Mathlib.Tactic.Simps.Basic
import U80211.Lib.Work
import U80211.Management
import U80211.RingBuffer

/-!
# `src/scan.c`: the state of a scan

The records in the ring buffer have the layout that a 64-bit little-endian machine gives to
`u80211_beacon_data_t`. What `u80211_scan`, its two work callbacks and a received probe response do
with a scan state in one step stands here; the steps themselves are in `U80211/Machine.lean`.
-/

namespace U80211

open Memory WorkQueue

/-! ## Channels -/

/-- `u80211_channel_rules_t` -/
structure ChannelRules where
  flags : UInt32
  maxDbm : Int
deriving DecidableEq

/-- `U80211_CHANNEL_RULES_DISABLED` -/
def channelRulesDisabled : UInt32 := 1

/-- `U80211_CHANNEL_RULES_PASSIVE` -/
def channelRulesPassive : UInt32 := 2

/-- `CHANNEL_COUNT` -/
def channelCount : Nat := 14

/-- `channels` -/
def channels : List ChannelRules :=
  List.replicate 11 { flags := 0, maxDbm := 20 } ++
    List.replicate 3 { flags := channelRulesDisabled, maxDbm := 0 }

/-- `u80211_get_channel_rules` -/
def getChannelRules (channel : Nat) : Option ChannelRules :=
  if channelCount < channel then some { flags := channelRulesDisabled, maxDbm := 0 }
  else if channel = 0 then none
  else channels[channel - 1]?

/-- The loop of `next_channel`, with the number of the channels that are left. -/
def nextChannelLoop : Nat → Nat → Option (Option Nat)
  | 0, _ => some none
  | n + 1, channel => do
    let rules ← getChannelRules channel
    if rules.flags &&& (channelRulesDisabled ||| channelRulesPassive) ≠ 0 then
      nextChannelLoop n (channel + 1)
    else some (some channel)

/-- `next_channel`; the inner `none` stands for -1. -/
def nextChannel (current : Nat) : Option (Option Nat) :=
  nextChannelLoop (14 - current) (current + 1)

/-! ## Records -/

/-- `sizeof(u80211_beacon_data_t)` -/
def beaconDataSize : Nat := 80

/-- `MAX_RSN_SIZE` -/
def maxRsnSize : Nat := 255

/-- `BUFFER_SIZE` -/
def bufferSize : UInt64 := UInt64.ofNat (64 * (beaconDataSize + maxRsnSize))

/-- The padding in front of the pointer `rsn`, and the pointer. -/
structure BeaconPointer where
  padding : FixedBytes 4
  rsn : FixedBytes 8

/-- The bytes of a `u80211_beacon_data_t`. -/
def BeaconData.bytes (beacon : BeaconData) (pointer : BeaconPointer) : List UInt8 :=
  beacon.macAddress.toList ++ serializeLe16 beacon.interval ++ serializeLe16 beacon.capabilities ++
    [beacon.channel] ++ beacon.rateBitmap.toList ++ beacon.ssid.toList ++ pointer.padding.toList ++
    pointer.rsn.toList ++ leBytes 8 beacon.rsn.length

/-- The fields of a `u80211_beacon_data_t` without those of the RSN element, and `rsn_size`. -/
def readBeacon (record : List UInt8) : Option (BeaconData × UInt64) := do
  let macAddress ← readBytes record 0 6
  let interval ← deserializeLe16 record 6
  let capabilities ← deserializeLe16 record 8
  let channel ← record[10]?
  let rateBitmap ← readBytes record 11 16
  let ssid ← readBytes record 27 33
  let rsnSize ← readBytes record 72 8
  some ({ macAddress, interval, capabilities, channel, rateBitmap, ssid, rsn := [] },
    UInt64.ofNat (leValue rsnSize.toList))

/-- The structure that `u80211_ap_allocate` fills in at a new address. -/
def BeaconData.accessPoint (beacon : BeaconData) (object : Nat) : AccessPoint where
  object := object
  macAddress := beacon.macAddress
  interval := beacon.interval
  capabilities := beacon.capabilities
  channel := beacon.channel
  rateBitmap := beacon.rateBitmap
  ssid := beacon.ssid
  rsn := beacon.rsn

/-- `valid_bssid` -/
def validBssid (address : MacAddress) : Bool :=
  let allZero := address.toList.all (· == 0)
  let allBroadcast := address.toList.all (· == 0xff)
  !allZero && !allBroadcast && !address.isGroup

/-! ## The state of a scan -/

/-- The lines from `set_channel` on that `u80211_scan` and `scan_work` have in common. -/
inductive Listen where
  | setChannel
  /-- before the section that sets `receiving` -/
  | receive
  | sendProbe
  /-- before `u80211_kernel_enqueue_delayed_work` -/
  | arm
deriving DecidableEq

def Listen.next : Listen → Option Listen
  | .setChannel => some .receive
  | .receive => some .sendProbe
  | .sendProbe => some .arm
  | .arm => none

/-- Positions in `scan_work`, with the values of its locals. -/
inductive ScanPc where
  /-- before the section that clears `receiving` -/
  | stop
  /-- at the head of the loop -/
  | drain
  /-- before the RSN element of a record is read -/
  | readRsn (beacon : BeaconData) (rsnSize : UInt64)
  /-- before `u80211_bss_cache_insert` -/
  | insert (ap : AccessPoint)
  /-- before `u80211_ap_release` -/
  | release (ap : AccessPoint)
  /-- before the section that sets `current_channel` -/
  | setCurrent (channel : Nat)
  | listen (line : Listen)
  /-- in `complete_scan`, before its section -/
  | complete
  /-- before `u80211_kernel_enqueue_work` of the cleanup -/
  | enqueueCleanup

/-- `u80211_scan_state_t`, with its work object and its timer. -/
structure ScanState where
  buffer : RingBuffer
  receiving : Bool
  currentChannel : Nat
  work : DelayedWork ScanPc
  /-- the data area of the ring buffer has been freed -/
  bufferFreed : Bool
  /-- the structure itself has been freed -/
  freed : Bool

namespace ScanState

/-- A scan state before the swap of the device state in `u80211_scan`. -/
def allocate (buffer : RingBuffer) (channel : Nat) : ScanState where
  buffer := buffer
  receiving := false
  currentChannel := channel
  work := .allocate
  bufferFreed := false
  freed := false

/-- `destroy_scan_state` of a state that no other thread has seen. -/
def destroy (o : ScanState) : ScanState :=
  { o with
    work := { work := { o.work.work with freed := true }, timerFreed := true }
    bufferFreed := true
    freed := true }

/-- `destroy_scan_state` has freed something of the state. -/
def Destroyed (o : ScanState) : Prop :=
  o.work.timerFreed = true ∨ o.work.work.freed = true ∨ o.bufferFreed = true ∨ o.freed = true

instance : DecidablePred Destroyed := fun _ => inferInstanceAs (Decidable (_ ∨ _))

/-- The callback goes on at the given position, or returns. -/
@[simps] def goto (o : ScanState) (next : Option ScanPc) : ScanState :=
  { o with work := o.work.goto next }

/-- What a line does to the state of the scan. -/
def listen (o : ScanState) : Listen → ScanState
  | .setChannel => o
  | .receive => { o with receiving := true }
  | .sendProbe => o
  | .arm => { o with work := o.work.enqueue }

/-- `u80211_scan_process_response` with the scan that is in `scan_context`. -/
def processResponse (o : ScanState) (beacon : BeaconData) (pointer : BeaconPointer) :
    Option ScanState :=
  if o.receiving = false ∨ maxRsnSize < beacon.rsn.length then some o
  else if o.buffer.freeSpace.toNat < beaconDataSize + beacon.rsn.length then some o
  else do
    let channel := if beacon.channel = 0 then UInt8.ofNat o.currentChannel else beacon.channel
    let beacon := { beacon with channel }
    let (buffer, _) ← ringbufferWrite o.buffer (beacon.bytes pointer) (UInt64.ofNat beaconDataSize)
    let (buffer, _) ← ringbufferWrite buffer beacon.rsn (UInt64.ofNat beacon.rsn.length)
    some { o with buffer }

/-- Where the loop of `scan_work` leads to once it has ended. -/
def leaveDrain (o : ScanState) : Option ScanPc := do
  match ← nextChannel o.currentChannel with
  | none => some .complete
  | some channel => some (.setCurrent channel)

/-- The head of the loop, up to the first `break`. -/
def drain (o : ScanState) : Option (ScanState × ScanPc) :=
  if o.buffer.dataCount.toNat < beaconDataSize then o.leaveDrain.map fun pc => (o, pc)
  else do
    let (buffer, record) ← ringbufferRead o.buffer (UInt64.ofNat beaconDataSize)
    let o := { o with buffer }
    if record.length ≠ beaconDataSize then o.leaveDrain.map fun pc => (o, pc)
    else do
      let (beacon, rsnSize) ← readBeacon record
      some (o, .readRsn beacon rsnSize)

/-- The loop from the second read on, up to `u80211_ap_allocate`: the data that is to be allocated,
or none that passes the checks. The error is the second `break`. -/
def readRsn (o : ScanState) (beacon : BeaconData) (rsnSize : UInt64) :
    Option (ScanState × Except Unit (Option BeaconData)) := do
  let (buffer, rsn) ← ringbufferRead o.buffer rsnSize
  let o := { o with buffer }
  -- the bytes go to the array `rsn` of the scan state
  if maxRsnSize < rsn.length then none
  else if rsn.length ≠ rsnSize.toNat then some (o, .error ())
  else
    let beacon := { beacon with rsn }
    if beacon.channel.toNat ≠ o.currentChannel ∨ validBssid beacon.macAddress = false then
      some (o, .ok none)
    else some (o, .ok (some beacon))

end ScanState

end U80211
