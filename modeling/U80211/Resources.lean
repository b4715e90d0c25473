import U80211.Key
import U80211.Scan
import U80211.System
import U80211.Lib.Ownership

/-!
# What a device allocates

The calls of the library with the objects that they ask the kernel for, one by one, and with every
way out when a request is refused. A program follows its function; between two calls of the kernel
other threads may run. The sections under a lock are those of the association and of the keys.

References to access points are counted elsewhere: here one is freed at any time after it has been
allocated, by whoever drops the last reference. What a call does besides is left out.
-/

namespace U80211

namespace Resources

open Ownership

/-! ## Objects -/

/-- What `kernel_interface.h` has a function to allocate and one to free for. -/
inductive KernelObject where
  | memory
  | spinlock
  | rwlock
  | semaphore
  | timer
  | work
deriving DecidableEq

/-- The addresses in a `u80211_device_t`, and its own. -/
structure DeviceHandles where
  device : Nat
  keySpinlock : Nat
  scanSpinlock : Nat
  scanCleanupWork : Nat
  associationSpinlock : Nat
  associationCleanupWork : Nat
  rwlock : Nat
deriving DecidableEq

/-- The addresses in a `u80211_association_context_t`, and its own. -/
structure ContextHandles where
  context : Nat
  completionWork : Nat
  authTimeoutWork : Nat
  authTimeoutTimer : Nat
  assocTimeoutWork : Nat
  assocTimeoutTimer : Nat
  informationElements : Option Nat
deriving DecidableEq

/-- The addresses in a `u80211_scan_state_t`, and its own. -/
structure ScanHandles where
  state : Nat
  data : Nat
  work : Nat
  timer : Nat
deriving DecidableEq

/-- The addresses in a `u80211_ap_t`, and its own. -/
structure ApHandles where
  ap : Nat
  rsn : Option Nat
deriving DecidableEq

/-! ## The shared state -/

/-- What the calls of a device share. A waiter is named by the address of its semaphore. -/
structure Shared where
  association : Association
  keys : List KeyMetadata
  /-- what an association context contains, by its address -/
  contexts : Nat → ContextHandles
  /-- `cleanup_association` has read `association_cleanup_context` -/
  cleaning : Bool
  /-- the scan state that the work of the scan has -/
  scan : Option ScanHandles
  scanWaiters : List Nat
  /-- semaphores that have been signalled, and the results of their waiters -/
  signalled : List Nat
  results : Nat → Status
  aps : List ApHandles

/-- As `u80211_register_device` leaves the fields. -/
def Shared.registered : Shared where
  association := .registered
  keys := []
  contexts := fun _ => ⟨0, 0, 0, 0, 0, 0, none⟩
  cleaning := false
  scan := none
  scanWaiters := []
  signalled := []
  results := fun _ => .success
  aps := []

abbrev Code (α : Type) := Program Shared KernelObject α

/-- `if (pointer != NULL) u80211_kernel_free(pointer)` -/
def freeIfAny : Option Nat → Code Unit
  | none => return
  | some a => free a .memory

/-! ## `key.c` -/

/-- `destroy_key_metadata` -/
def destroyKeyMetadata (metadata : KeyMetadata) : Code Unit := free metadata.object .memory

/-- `u80211_key_state_init` -/
def keyStateInit : Code (Except Status Nat) := do
  let some keySpinlock ← allocate .spinlock | return .error .enomem
  return .ok keySpinlock

/-- `u80211_key_state_deinit` -/
def keyStateDeinit (keys : List KeyMetadata) (keySpinlock : Nat) : Code Unit := do
  keys.forM destroyKeyMetadata
  free keySpinlock .spinlock

/-- `u80211_set_key`, given what the driver answers. -/
def setKey (hasSetKey : Bool) (key : Key) (status : Status) : Code Status := do
  if ¬ hasSetKey then return .unsupported
  else if key.key = none ∧ key.keyLen ≠ 0 ∨ sizeMax - keyMetadataSize < key.keyLen then
    return .notPermitted
  else
    let some object ← allocate .memory | return .enomem
    if status ≠ .success then
      destroyKeyMetadata (key.metadata object)
      return status
    else
      let s ← update fun s => some { s with keys := setKeyList s.keys (key.metadata object) }
      match s.keys.find? (keyIdentityEqual key.index key.peer key.flags) with
      | none => return .success
      | some oldMetadata =>
        destroyKeyMetadata oldMetadata
        return .success

/-- `u80211_del_key`, given what the driver answers. -/
def delKey (hasDelKey : Bool) (index : UInt8) (peer : MacAddress) (flags : UInt32)
    (status : Status) : Code Status := do
  if ¬ hasDelKey then return .unsupported
  else if status ≠ .success then return status
  else
    let s ← update fun s => some { s with keys := delKeyList s.keys index peer flags }
    match s.keys.find? (keyIdentityEqual index peer flags) with
    | none => return .success
    | some removedMetadata =>
      destroyKeyMetadata removedMetadata
      return .success

/-! ## `ap.c` -/

/-- `u80211_ap_allocate`; `none` stands for `NULL`. -/
def apAllocate (rsnSize : Nat) : Code (Option ApHandles) := do
  let some ap ← allocate .memory | return none
  if rsnSize ≠ 0 then
    let some rsn ← allocate .memory
      | free ap .memory
        return none
    return some { ap, rsn := some rsn }
  else return some { ap, rsn := none }

/-- `u80211_ap_inactive` -/
def apInactive (handles : ApHandles) : Code Unit := do
  freeIfAny handles.rsn
  free handles.ap .memory

/-! ## `association.c` -/

/-- `destroy_association_context` -/
def destroyAssociationContext (handles : ContextHandles) : Code Unit := do
  free handles.authTimeoutTimer .timer
  free handles.assocTimeoutTimer .timer
  free handles.completionWork .work
  free handles.authTimeoutWork .work
  free handles.assocTimeoutWork .work
  freeIfAny handles.informationElements
  free handles.context .memory

/-- The allocations of `u80211_associate`. -/
def allocateAssociationContext (informationElementsSize : Nat) :
    Code (Except Status ContextHandles) := do
  let some context ← allocate .memory | return .error .enomem
  let some completionWork ← allocate .work
    | free context .memory
      return .error .enomem
  let some authTimeoutWork ← allocate .work
    | free completionWork .work
      free context .memory
      return .error .enomem
  let some authTimeoutTimer ← allocate .timer
    | free authTimeoutWork .work
      free completionWork .work
      free context .memory
      return .error .enomem
  let some assocTimeoutWork ← allocate .work
    | free authTimeoutTimer .timer
      free authTimeoutWork .work
      free completionWork .work
      free context .memory
      return .error .enomem
  let some assocTimeoutTimer ← allocate .timer
    | free assocTimeoutWork .work
      free authTimeoutTimer .timer
      free authTimeoutWork .work
      free completionWork .work
      free context .memory
      return .error .enomem
  let handles : ContextHandles :=
    { context, completionWork, authTimeoutWork, authTimeoutTimer, assocTimeoutWork,
      assocTimeoutTimer, informationElements := none }
  if informationElementsSize ≠ 0 then
    let some informationElements ← allocate .memory
      | destroyAssociationContext handles
        return .error .enomem
    return .ok { handles with informationElements := some informationElements }
  else return .ok handles

/-- The section of `u80211_associate`. -/
def Shared.associate (s : Shared) (ap : AccessPoint) (informationElements : List UInt8)
    (handles : ContextHandles) : Shared :=
  match U80211.associate s.association ap handles.context informationElements with
  | none => s
  | some (context, association) =>
    { s with association, contexts := Function.update s.contexts context.id handles }

/-- `u80211_associate` -/
def associate (ap : AccessPoint) (informationElements : List UInt8) : Code Status := do
  if associationInformationElementsMaxSize < informationElements.length then
    return .notEnoughSpace
  else
    -- `release_disconnected_ap`
    let _ ← update fun s => some { s with association := (releaseDisconnectedAp s.association).2 }
    match ← allocateAssociationContext informationElements.length with
    | .error status => return status
    | .ok handles =>
      let s ← update fun s => some (s.associate ap informationElements handles)
      match U80211.associate s.association ap handles.context informationElements with
      | none =>
        destroyAssociationContext handles
        return .busy
      | some _ => return .success

/-- The section of a received frame that asks for something. -/
def process (message : Message) : Code Status := do
  let _ ← update fun s =>
    some { s with association := (associationProcess s.association message).association }
  return .success

/-- The section of `association_timeout`. -/
def timeout (context : AssociationContext) (kind : TimeoutKind) : Code Status := do
  let _ ← update fun s => some { s with
    association := (associationTimeout s.association context kind.expectedState).association }
  return .success

/-- `u80211_deauthenticate`, given what `u80211_send_deauthentication` answers. -/
def deauthenticate (status : Status) : Code Status := do
  let s ← update fun s => some { s with
    association := (deauthenticateFirst s.association).elim s.association Prod.snd }
  match deauthenticateFirst s.association with
  | none => return .notAssociated
  | some _ =>
    let _ ← update fun s => some { s with association := (deauthenticateSecond s.association).2 }
    return status

/-- The first section of `cleanup_association`, which waits while the work is in its callback. -/
def Shared.cleanupFirst (s : Shared) : Option Shared :=
  if s.cleaning then none
  else some { s with
    association := (cleanupAssociationFirst s.association).2.2
    cleaning := s.association.associationCleanupContext.isSome }

/-- The second section of `cleanup_association`. -/
def Shared.cleanupSecond (s : Shared) : Shared :=
  let (waiters, result, association) := cleanupAssociationSecond s.association
  { s with
    association
    cleaning := false
    signalled := waiters ++ s.signalled
    results := fun i => if i ∈ waiters then result else s.results i }

/-- `cleanup_association` -/
def cleanupAssociation : Code Status := do
  let s ← update Shared.cleanupFirst
  match s.association.associationCleanupContext with
  | none => return .success
  | some context =>
    destroyAssociationContext (s.contexts context.id)
    let _ ← update fun s => some s.cleanupSecond
    return .success

/-- `u80211_kernel_wait_semaphore` -/
def Shared.waitSemaphore (s : Shared) (semaphore : Nat) : Option Shared :=
  if semaphore ∈ s.signalled then some { s with signalled := s.signalled.erase semaphore }
  else none

/-- `u80211_wait_for_association_completion` -/
def waitForAssociationCompletion : Code Status := do
  let some semaphore ← allocate .semaphore | return .retry
  let s ← update fun s => some { s with
    association := (U80211.waitForAssociationCompletion s.association semaphore).2 }
  match (U80211.waitForAssociationCompletion s.association semaphore).1 with
  | some result =>
    free semaphore .semaphore
    return result
  | none =>
    let s ← update fun s => s.waitSemaphore semaphore
    free semaphore .semaphore
    return s.results semaphore

/-! ## `scan.c` -/

/-- `u80211_ringbuffer_init` -/
def ringbufferInit (size : UInt64) : Code (Except Status Nat) := do
  if size = 0 then return .error .notEnoughSpace
  else
    let some data ← allocate .memory | return .error .enomem
    return .ok data

/-- `u80211_ringbuffer_destroy` -/
def ringbufferDestroy (data : Nat) : Code Unit := free data .memory

/-- `destroy_scan_state` -/
def destroyScanState (handles : ScanHandles) : Code Unit := do
  free handles.timer .timer
  free handles.work .work
  ringbufferDestroy handles.data
  free handles.state .memory

/-- The allocations of `u80211_scan`. -/
def allocateScanState : Code (Except Status ScanHandles) := do
  let some state ← allocate .memory | return .error .enomem
  match ← ringbufferInit bufferSize with
  | .error status =>
    free state .memory
    return .error status
  | .ok data =>
    let some work ← allocate .work
      | ringbufferDestroy data
        free state .memory
        return .error .enomem
    let some timer ← allocate .timer
      | free work .work
        ringbufferDestroy data
        free state .memory
        return .error .enomem
    return .ok ⟨state, data, work, timer⟩

/-- The swap of `u80211_scan`. -/
def Shared.claim (s : Shared) (handles : ScanHandles) : Shared :=
  match setDeviceState s.association .down .scanning with
  | none => s
  | some association => { s with association, scan := some handles }

/-- `u80211_scan` -/
def scan : Code Status := do
  match ← allocateScanState with
  | .error status => return status
  | .ok handles =>
    match (nextChannel 0).join with
    | none =>
      destroyScanState handles
      return .notPermitted
    | some _ =>
      let s ← update fun s => some (s.claim handles)
      match setDeviceState s.association .down .scanning with
      | none =>
        destroyScanState handles
        return .busy
      | some _ => return .success

/-- The section of `cleanup_scan`. -/
def Shared.leaveScan (s : Shared) : Shared :=
  { s with
    association := (setDeviceState s.association .scanning .down).getD s.association
    scanWaiters := []
    signalled := s.scanWaiters ++ s.signalled }

/-- `cleanup_scan`, which `complete_scan` has queued with the scan state. -/
def cleanupScan : Code Status := do
  let s ← update fun s => s.scan.map fun _ => { s with scan := none }
  match s.scan with
  | none => return .success
  | some handles =>
    destroyScanState handles
    let _ ← update fun s => some s.leaveScan
    return .success

/-- The section of `u80211_wait_for_scan_completion`. -/
def Shared.waitForScan (s : Shared) (semaphore : Nat) : Shared :=
  if s.association.state ≠ .scanning then s
  else { s with scanWaiters := s.scanWaiters ++ [semaphore] }

/-- `u80211_wait_for_scan_completion` -/
def waitForScanCompletion : Code Status := do
  let some semaphore ← allocate .semaphore | return .retry
  let s ← update fun s => some (s.waitForScan semaphore)
  if s.association.state ≠ .scanning then
    free semaphore .semaphore
    return .success
  else
    let _ ← update fun s => s.waitSemaphore semaphore
    free semaphore .semaphore
    return .success

/-! ## `device.c` -/

/-- `u80211_bss_cache_init` -/
def bssCacheInit : Code (Except Status Nat) := do
  let some rwlock ← allocate .rwlock | return .error .enomem
  return .ok rwlock

/-- `u80211_bss_cache_deinit`; `last` are the access points of which the cache has the last
reference. -/
def bssCacheDeinit (last : List ApHandles) (rwlock : Nat) : Code Unit := do
  last.forM apInactive
  free rwlock .rwlock

/-- `u80211_register_device` -/
def registerDevice : Code (Except Status DeviceHandles) := do
  let some device ← allocate .memory | return .error .enomem
  match ← keyStateInit with
  | .error status =>
    free device .memory
    return .error status
  | .ok keySpinlock =>
    let some scanSpinlock ← allocate .spinlock
      | keyStateDeinit [] keySpinlock
        free device .memory
        return .error .enomem
    let some scanCleanupWork ← allocate .work
      | free scanSpinlock .spinlock
        keyStateDeinit [] keySpinlock
        free device .memory
        return .error .enomem
    let some associationSpinlock ← allocate .spinlock
      | free scanCleanupWork .work
        free scanSpinlock .spinlock
        keyStateDeinit [] keySpinlock
        free device .memory
        return .error .enomem
    let some associationCleanupWork ← allocate .work
      | free associationSpinlock .spinlock
        free scanCleanupWork .work
        free scanSpinlock .spinlock
        keyStateDeinit [] keySpinlock
        free device .memory
        return .error .enomem
    match ← bssCacheInit with
    | .error status =>
      free associationCleanupWork .work
      free associationSpinlock .spinlock
      free scanCleanupWork .work
      free scanSpinlock .spinlock
      keyStateDeinit [] keySpinlock
      free device .memory
      return .error status
    | .ok rwlock =>
      return .ok ⟨device, keySpinlock, scanSpinlock, scanCleanupWork, associationSpinlock,
        associationCleanupWork, rwlock⟩

/-- `u80211_unregister_device`; `disconnected` is the access point of which `disconnected_ap` is the
last reference, if it is, and `last` are those of the cache. -/
def unregisterDevice (handles : DeviceHandles) (keys : List KeyMetadata)
    (disconnected : Option ApHandles) (last : List ApHandles) : Code Unit := do
  keyStateDeinit keys handles.keySpinlock
  free handles.scanCleanupWork .work
  free handles.associationCleanupWork .work
  disconnected.toList.forM apInactive
  bssCacheDeinit last handles.rwlock
  free handles.associationSpinlock .spinlock
  free handles.scanSpinlock .spinlock
  free handles.device .memory

/-! ## Calls -/

/-- What may be called at any time while the device is registered. -/
inductive Call where
  | setKey (hasSetKey : Bool) (key : Key) (status : Status)
  | delKey (hasDelKey : Bool) (index : UInt8) (peer : MacAddress) (flags : UInt32) (status : Status)
  | associate (ap : AccessPoint) (informationElements : List UInt8)
  | process (message : Message)
  | timeout (context : AssociationContext) (kind : TimeoutKind)
  | deauthenticate (status : Status)
  | cleanupAssociation
  | waitForAssociationCompletion
  | scan
  | cleanupScan
  | waitForScanCompletion
  /-- `scan_work` puts a new access point into the cache -/
  | apAllocate (rsnSize : Nat)
  /-- `u80211_ap_release` of the last reference to an access point -/
  | apInactive (i : Nat)

/-- The threads of a device. -/
abbrev DeviceThreads := Threads Shared KernelObject Status

def Call.program : Call → Code Status
  | .setKey hasSetKey key status => Resources.setKey hasSetKey key status
  | .delKey hasDelKey index peer flags status => Resources.delKey hasDelKey index peer flags status
  | .associate ap informationElements => Resources.associate ap informationElements
  | .process message => Resources.process message
  | .timeout context kind => Resources.timeout context kind
  | .deauthenticate status => Resources.deauthenticate status
  | .cleanupAssociation => Resources.cleanupAssociation
  | .waitForAssociationCompletion => Resources.waitForAssociationCompletion
  | .scan => Resources.scan
  | .cleanupScan => Resources.cleanupScan
  | .waitForScanCompletion => Resources.waitForScanCompletion
  | .apAllocate rsnSize => do
    match ← Resources.apAllocate rsnSize with
    | none => return .enomem
    | some handles =>
      let _ ← update fun s => some { s with aps := handles :: s.aps }
      return .success
  | .apInactive i => do
    let s ← update fun s => s.aps[i]?.map fun _ => { s with aps := s.aps.eraseIdx i }
    match s.aps[i]? with
    | none => return .success
    | some handles =>
      Resources.apInactive handles
      return .success

/-- A step of the threads of a device. -/
def step : Ownership.Action Call → DeviceThreads → Option DeviceThreads := Threads.step Call.program

/-- A device that has just been registered. -/
def init (heap : Heap KernelObject) : DeviceThreads where
  heap := heap
  shared := .registered
  threads := []

end Resources

end U80211
