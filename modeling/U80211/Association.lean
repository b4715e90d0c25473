import U80211.Basic

/-!
# `src/association.c`: the critical sections

Each definition is what one section under `association_spinlock` does to the fields of the
device that the lock guards. What a function does outside of the lock (releasing an access
point, queueing work, freeing a context) is a step of its own and stands in
`U80211/System.lean`.

`setDeviceState` is the compare-and-swap of `u80211.h`. Inside a section it sees the value the
section has read before: only the two swaps of a scan happen without the lock, and they touch
no state that a section swaps from after having read it.
-/

namespace U80211

/-! ## Data -/

/-- `u80211_auth_data_t` -/
structure AuthData where
  address : MacAddress
  authAlgorithm : UInt16
  authTransaction : UInt16
  status : UInt16
deriving DecidableEq

/-- `u80211_association_response_data_t` -/
structure AssociationResponseData where
  address : MacAddress
  capabilities : UInt16
  status : UInt16
  associationId : UInt16
  rateBitmap : Memory.FixedBytes 16
deriving DecidableEq

/-- `u80211_deauthentication_data_t` -/
structure DeauthenticationData where
  address : MacAddress
  reason : UInt16
deriving DecidableEq

/-- `u80211_disassociation_data_t` -/
structure DisassociationData where
  address : MacAddress
  reason : UInt16
deriving DecidableEq

/-- `U80211_AUTH_ALGORITHM_OPEN` -/
def authAlgorithmOpen : UInt16 := 0

/-- What a received frame asks of the association machine. -/
inductive Message where
  | authentication (data : AuthData)
  | response (data : AssociationResponseData)
  | deauthentication (data : DeauthenticationData)
  | disassociation (data : DisassociationData)
deriving DecidableEq

/--
`u80211_association_context_t` without its work objects and timers. `id` stands for the address
of the structure: every allocation has its own. No field changes once the context is visible to
other threads.
-/
structure AssociationContext where
  id : Nat
  generation : UInt32
  ap : AccessPoint
  informationElements : List UInt8
deriving DecidableEq

/--
The fields of `u80211_device_t` that `association_spinlock` guards, and the device state.
A waiter is named by the call that it belongs to.
-/
structure Association where
  state : DeviceState
  receivedSequenceControl : UInt16
  receivedSequenceControlValid : Bool
  associationContext : Option AssociationContext
  associationCleanupContext : Option AssociationContext
  associationCleanupPending : Bool
  associationWaiters : List Nat
  associationGeneration : UInt32
  associationResult : Status
  ap : Option AccessPoint
  disconnectedAp : Option AccessPoint
deriving DecidableEq

/-- As `u80211_register_device` leaves the fields. -/
def Association.registered : Association where
  state := .down
  receivedSequenceControl := 0
  receivedSequenceControlValid := false
  associationContext := none
  associationCleanupContext := none
  associationCleanupPending := false
  associationWaiters := []
  associationGeneration := 0
  associationResult := .unknownError
  ap := none
  disconnectedAp := none

/-- `u80211_set_device_state`; `none` when the swap fails. -/
def setDeviceState (a : Association) (oldState newState : DeviceState) : Option Association :=
  if a.state = oldState then some { a with state := newState } else none

/-- `u80211_mac_address_equal(&device->ap->mac_address, address)`, false without an `ap`. -/
def apHasAddress (a : Association) (address : MacAddress) : Bool :=
  match a.ap with
  | none => false
  | some ap => macAddressEqual ap.macAddress address

theorem apHasAddress_iff {a : Association} {address : MacAddress} :
    apHasAddress a address = true ↔ ∃ ap, a.ap = some ap ∧ ap.macAddress = address := by
  unfold apHasAddress
  cases a.ap with
  | none => simp
  | some ap => simp

/-! ## Received frames and timeouts

A section that handles a frame or a timeout tells what else it does: the reference it takes,
the completion work it queues while it holds the lock, and whether the caller has to queue
`association_cleanup_work` once the lock is released.
-/

structure SectionResult where
  association : Association
  held : Option AccessPoint := none
  completion : Option AssociationContext := none
  cleanupNeeded : Bool := false

/-- `goto leave` before anything was changed. -/
def SectionResult.unchanged (a : Association) : SectionResult := { association := a }

/-- `u80211_association_is_duplicate`: whether the frame is dropped. -/
def associationIsDuplicate (a : Association) (header : HeaderDescription)
    (expectedState : DeviceState) : Bool × Association :=
  if a.state = expectedState ∧ apHasAddress a header.address2 then
    if hasFlag header.frameControl frameControlRetry && a.receivedSequenceControlValid
        && a.receivedSequenceControl == header.sequenceControl then (true, a)
    else
      (false, { a with
        receivedSequenceControl := header.sequenceControl
        receivedSequenceControlValid := true })
  else (false, a)

/-- `schedule_association_cleanup` -/
def scheduleAssociationCleanup (a : Association) (context : Option AssociationContext) :
    Association :=
  { a with
    associationContext := none
    associationCleanupContext := context
    associationCleanupPending := true }

/-- `association_process_teardown` -/
def associationProcessTeardown (a : Association) (address : MacAddress)
    (deauthentication : Bool) : SectionResult :=
  if ¬ apHasAddress a address then .unchanged a
  else
    let state := a.state
    let attemptInProgress := state = .authenticating ∨ state = .associating
    if state ≠ .associated ∧ (¬ deauthentication ∨ ¬ attemptInProgress) then .unchanged a
    else
      match setDeviceState a state .down with
      | none => .unchanged a
      | some a =>
        if attemptInProgress then
          match a.associationContext with
          -- the state has been changed all the same
          | none => { association := a }
          | some context =>
            let a := scheduleAssociationCleanup a (some context)
            { association := { a with
                associationResult := .rejected
                ap := none
                associationGeneration := a.associationGeneration + 1 }
              cleanupNeeded := true }
        else
          { association := { a with
              disconnectedAp := a.ap
              ap := none
              associationGeneration := a.associationGeneration + 1 }
            cleanupNeeded := true }

/-- `u80211_association_process_response` -/
def associationProcessResponse (a : Association) (data : AssociationResponseData) :
    SectionResult :=
  match a.associationContext, a.ap with
  | some context, some ap =>
    if ¬ macAddressEqual context.ap.macAddress data.address then .unchanged a
    else
      let newState := if data.status ≠ 0 then DeviceState.down else .associated
      match setDeviceState a .associating newState with
      | none => .unchanged a
      | some a =>
        let a := if data.status ≠ 0 then { a with ap := none } else a
        let a := scheduleAssociationCleanup a (some context)
        { association := { a with
            associationGeneration := a.associationGeneration + 1
            associationResult := if data.status ≠ 0 then .rejected else .success }
          -- the device takes a reference of its own; the cleanup releases that of the context
          held := if data.status ≠ 0 then none else some ap
          cleanupNeeded := true }
  | _, _ => .unchanged a

/-- `association_timeout` for the context whose timer expired. -/
def associationTimeout (a : Association) (context : AssociationContext)
    (expectedState : DeviceState) : SectionResult :=
  if a.associationContext ≠ some context ∨ a.ap = none ∨
      a.associationGeneration ≠ context.generation then .unchanged a
  else
    match setDeviceState a expectedState .down with
    | none => .unchanged a
    | some a =>
      let a := scheduleAssociationCleanup { a with ap := none } (some context)
      { association := { a with
          associationGeneration := a.associationGeneration + 1
          associationResult := .timedOut }
        cleanupNeeded := true }

/-- `u80211_association_process_authentication` -/
def associationProcessAuthentication (a : Association) (data : AuthData) : SectionResult :=
  if ¬ apHasAddress a data.address then .unchanged a
  else if data.authAlgorithm ≠ authAlgorithmOpen ∨ data.authTransaction ≠ 2 then .unchanged a
  else if data.status ≠ 0 then
    match setDeviceState a .authenticating .down with
    | none => .unchanged a
    | some a =>
      let a := scheduleAssociationCleanup { a with ap := none } a.associationContext
      { association := { a with
          associationGeneration := a.associationGeneration + 1
          associationResult := .rejected }
        cleanupNeeded := true }
  else
    match setDeviceState a .authenticating .associating with
    | none => .unchanged a
    -- the completion work is queued before the lock is released
    | some a => { association := a, completion := a.associationContext }

/-- The `u80211_association_process_*` function that a message is for. -/
def associationProcess (a : Association) : Message → SectionResult
  | .authentication data => associationProcessAuthentication a data
  | .response data => associationProcessResponse a data
  | .deauthentication data => associationProcessTeardown a data.address true
  | .disassociation data => associationProcessTeardown a data.address false

/-! ## Calls and deferred work -/

/-- The section of `release_disconnected_ap`: the access point to release afterwards. -/
def releaseDisconnectedAp (a : Association) : Option AccessPoint × Association :=
  (a.disconnectedAp, { a with disconnectedAp := none })

/-- The first section of `cleanup_association`: the context and the access point it takes. -/
def cleanupAssociationFirst (a : Association) :
    Option AssociationContext × Option AccessPoint × Association :=
  (a.associationCleanupContext, a.disconnectedAp, { a with disconnectedAp := none })

/-- The second section of `cleanup_association`: the waiters `wake_association_waiters` takes
from the list, and the result it gives to them. -/
def cleanupAssociationSecond (a : Association) : List Nat × Status × Association :=
  (a.associationWaiters, a.associationResult,
    { a with
      associationCleanupContext := none
      associationCleanupPending := false
      associationWaiters := [] })

/-- The section of `u80211_associate` with the new context; `none` when the device is busy.
`id` is the address of the context. -/
def associate (a : Association) (ap : AccessPoint) (id : Nat) (informationElements : List UInt8) :
    Option (AssociationContext × Association) :=
  if a.associationCleanupPending then none
  else
    match setDeviceState a .down .authenticating with
    | none => none
    | some a =>
      let context : AssociationContext :=
        { id, generation := a.associationGeneration, ap, informationElements }
      some (context, { a with
        associationContext := some context
        associationResult := .unknownError
        ap := some ap
        receivedSequenceControl := 0
        receivedSequenceControlValid := false })

/-- The first section of `u80211_deauthenticate`: the address to send to, `none` when the device
is not associated. -/
def deauthenticateFirst (a : Association) : Option (MacAddress × Association) :=
  match a.ap with
  | none => none
  | some ap =>
    if a.state ≠ .associated then none
    else (setDeviceState a .associated .deauthenticating).map fun a => (ap.macAddress, a)

/-- The second section of `u80211_deauthenticate`: the access point to release afterwards. -/
def deauthenticateSecond (a : Association) : Option AccessPoint × Association :=
  match a.ap with
  | none => (none, a)
  | some ap =>
    if a.state = .deauthenticating then
      let a := { a with ap := none, associationGeneration := a.associationGeneration + 1 }
      match setDeviceState a .deauthenticating .down with
      | none => (some ap, a)
      | some a => (some ap, a)
    else (none, a)

/-- The section of `u80211_wait_for_association_completion`: the result to return at once, or
`none` when the waiter was put on the list. -/
def waitForAssociationCompletion (a : Association) (waiter : Nat) :
    Option Status × Association :=
  if a.state ≠ .authenticating ∧ a.state ≠ .associating ∧ ¬ a.associationCleanupPending then
    (some a.associationResult, a)
  else (none, { a with associationWaiters := a.associationWaiters ++ [waiter] })

end U80211
