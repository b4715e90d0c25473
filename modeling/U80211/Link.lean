import U80211.Receive
import U80211.System

/-!
# A device and the packets it receives

The receive path joined to the association machine. A step handles one packet from start to end, or
it is a step of the association machine, or it changes the fields of the device that other calls
write and `association_spinlock` does not guard.

Between the two sections that a management frame leads to other threads may run. A frame that is
handled in this way is a call of the association machine, `Entry.receiveManagement`.
-/

namespace U80211

structure Link where
  system : System
  packetCount : UInt64
  txSequenceControl : UInt16
  keys : List KeyMetadata

namespace Link

/-- The device as `u80211_register_device` leaves it. -/
def registered (ownAddress : MacAddress) : Link where
  system := .registered ownAddress
  packetCount := 0
  txSequenceControl := 0
  keys := []

/-- The device that a packet is handed to. -/
@[simps] def device (l : Link) : Device where
  macAddress := l.system.ownAddress
  packetCount := l.packetCount
  txSequenceControl := l.txSequenceControl
  keys := l.keys
  association := l.system.association
  references := l.system.references

end Link

/-- What an effect of the receive path does to the work objects. -/
def ReceiveEffect.perform (s : System) : ReceiveEffect → System
  | .enqueueCompletion context => s.enqueueCompletion context.id
  | .enqueueCleanup => { s with cleanupWork := s.cleanupWork.enqueue }
  | .receiveCallback _ | .scanProcessResponse _ => s

namespace Link

/-- The device after a packet, with the call that has handled it. -/
def receive (l : Link) (device : Device) (effects : List ReceiveEffect) : Link where
  system :=
    effects.foldl ReceiveEffect.perform
      { l.system with
        association := device.association
        references := device.references
        calls := l.system.calls ++ [.handled] }
  packetCount := device.packetCount
  txSequenceControl := device.txSequenceControl
  keys := device.keys

inductive Action where
  /-- `u80211_process_packet` -/
  | packet (packet : List UInt8)
  /-- a step of the association machine -/
  | system (action : U80211.Action)
  /-- a frame is sent, a key is set or deleted, or the packets are counted anew -/
  | other (packetCount : UInt64) (txSequenceControl : UInt16) (keys : List KeyMetadata)

def step (action : Action) (l : Link) : Option Link :=
  match action with
  | .packet packet => (processPacket l.device packet).map fun r => l.receive r.1 r.2
  | .system action => (U80211.step action l.system).map fun system => { l with system }
  | .other packetCount txSequenceControl keys =>
    some { l with packetCount, txSequenceControl, keys }

abbrev Transition := Lts.Transition Link Action

/-- The states that the device can be in. -/
abbrev Reachable (ownAddress : MacAddress) : Link → Prop :=
  Lts.Reachable step (.registered ownAddress)

end Link

end U80211
