import U80211.CacheSystem
import U80211.Scan
import U80211.System

/-!
# The whole device: scans, associations and the cache together

The system of `U80211/System.lean`, the cache with the references of its callers, the scans and the
channel of the radio. The steps of `src/scan.c` are as fine as those of `src/association.c`: one
section under `scan_spinlock`, one swap of the device state, one operation on a work object, one
driver operation, one operation of the cache or one access to the ring buffer.

A step that touches a freed scan state goes on as if it were still there; theorems about such
steps speak of the state in which the step is about to be taken.
-/

namespace U80211

open Memory WorkQueue

/-! ## Positions -/

/-- Positions in `cleanup_scan`, with its local `scan_state`; the first four are the lines of
`destroy_scan_state`. -/
inductive ScanCleanupPc where
  | freeTimer (k : Nat)
  | freeWork (k : Nat)
  | freeBuffer (k : Nat)
  | freeState (k : Nat)
  /-- before the critical section -/
  | last (k : Nat)
deriving DecidableEq

/-- Positions of the calls into `src/scan.c`. `k` stands for the address of a scan state. -/
inductive ScanCall where
  /-- `u80211_scan`, before its allocations -/
  | scanAllocate
  /-- before the swap of the device state -/
  | scanClaim (k : Nat)
  /-- before the section that sets `scan_context` -/
  | scanPublish (k : Nat)
  /-- before `u80211_bss_cache_purge` -/
  | scanPurge (k : Nat)
  | scanListen (k : Nat) (line : Listen)
  /-- `u80211_wait_for_scan_completion`, before the allocation of the semaphore -/
  | waitAllocate
  /-- before the critical section -/
  | waitCritical
  /-- in `u80211_kernel_wait_semaphore`, with the count of the semaphore -/
  | waiting (semaphore : Nat)
  /-- `u80211_scan_process_response` -/
  | response (beacon : BeaconData)
  /-- a call that has returned a status -/
  | returned (status : Status)
  /-- a response that has been handled -/
  | handled

/-- What the kernel and the driver answer to a step of a scan: whether its allocation succeeds and
what the new memory is. -/
structure ScanOutcome where
  allocated : Bool := true
  /-- the contents of the data area of a ring buffer -/
  memory : Nat → UInt8 := fun _ => 0
  /-- the address of an access point -/
  object : Nat := 0
  /-- the contents of its tree node -/
  node : RbNode AccessPoint := { left := none, right := none, parent := none, colour := .red }
  /-- what a record has besides the fields that are read back -/
  pointer : BeaconPointer := { padding := .zero 4, rsn := .zero 8 }

/-! ## State -/

structure Machine where
  system : System
  callers : CacheSystem
  /-- the channel that `set_channel` has tuned the radio to -/
  radio : Option Nat
  /-- `device->scan_context` -/
  scanContext : Option Nat
  /-- `device->scan_waiters`; a waiter is named by the call that it belongs to -/
  scanWaiters : List Nat
  scanStates : Nat → Option ScanState
  /-- the next address that a scan state is allocated at -/
  nextScanState : Nat
  scanCalls : List ScanCall
  /-- `device->scan_cleanup_work` -/
  scanCleanupWork : Work ScanCleanupPc
  /-- the argument of the pending request of `scanCleanupWork` -/
  scanCleanupArgument : Nat

namespace Machine

/-- The device as `u80211_register_device` leaves it. -/
def registered (ownAddress : MacAddress) : Machine where
  system := .registered ownAddress
  callers := .init
  radio := none
  scanContext := none
  scanWaiters := []
  scanStates := fun _ => none
  nextScanState := 0
  scanCalls := []
  scanCleanupWork := .allocate
  scanCleanupArgument := 0

@[simps] def setScanCall (m : Machine) (i : Nat) (c : ScanCall) : Machine :=
  { m with scanCalls := m.scanCalls.set i c }

@[simps] def setScanState (m : Machine) (k : Nat) (o : ScanState) : Machine :=
  { m with scanStates := Function.update m.scanStates k (some o) }

@[simps] def setCache (m : Machine) (cache : BssCache) : Machine :=
  { m with callers := { m.callers with cache } }

/-- Take a step on the scan state `k`. -/
def withScanState (m : Machine) (k : Nat) (f : ScanState → Option Machine) : Option Machine :=
  match m.scanStates k with
  | none => none
  | some o => f o

/-- Signal the semaphore of one waiter. -/
def signal (calls : List ScanCall) (waiter : Nat) : List ScanCall :=
  match calls[waiter]? with
  | some (.waiting semaphore) => calls.set waiter (.waiting (semaphore + 1))
  | _ => calls

/-- `wake_scan_waiters` -/
def wakeScanWaiters (calls : List ScanCall) (waiters : List Nat) : List ScanCall :=
  waiters.foldl signal calls

/-! ## Steps of `src/scan.c` -/

/-- A line that `u80211_scan` and `scan_work` have in common. -/
def listen (m : Machine) (k : Nat) (o : ScanState) (line : Listen) : Machine :=
  { m with
    radio := if line = Listen.setChannel then some o.currentChannel else m.radio }.setScanState k
      (o.listen line)

/-- The next step of call `i`, which stands at the given position. -/
def stepScanCall (m : Machine) (i : Nat) (outcome : ScanOutcome) : ScanCall → Option Machine
  | .scanAllocate =>
    -- one step for all the allocations: nobody else knows of the state yet
    match ringbufferInit bufferSize (if outcome.allocated then some outcome.memory else none) with
    | .error status => some (m.setScanCall i (.returned status))
    | .ok buffer => do
      match ← nextChannel 0 with
      | none => some (m.setScanCall i (.returned .notPermitted))
      | some channel =>
        some (({ m with nextScanState := m.nextScanState + 1 }.setScanState m.nextScanState
          (.allocate buffer channel)).setScanCall i (.scanClaim m.nextScanState))
  | .scanClaim k =>
    match setDeviceState m.system.association .down .scanning with
    | none =>
      -- the state is destroyed again before anyone has seen it
      m.withScanState k fun o =>
        some ((m.setScanState k o.destroy).setScanCall i (.returned .busy))
    | some association =>
      some ({ m with system := { m.system with association } }.setScanCall i (.scanPublish k))
  | .scanPublish k => some ({ m with scanContext := some k }.setScanCall i (.scanPurge k))
  | .scanPurge k => do
    let cache ← m.callers.cache.purge m.callers.rounds
    some ((m.setCache cache).setScanCall i (.scanListen k .setChannel))
  | .scanListen k line =>
    m.withScanState k fun o =>
      some ((m.listen k o line).setScanCall i
        (match line.next with
        | none => .returned .success
        | some line => .scanListen k line))
  | .waitAllocate =>
    if outcome.allocated then some (m.setScanCall i .waitCritical)
    else some (m.setScanCall i (.returned .retry))
  | .waitCritical =>
    if m.system.association.state ≠ .scanning then some (m.setScanCall i (.returned .success))
    else some ({ m with scanWaiters := m.scanWaiters ++ [i] }.setScanCall i (.waiting 0))
  | .waiting semaphore =>
    if semaphore = 0 then none else some (m.setScanCall i (.returned .success))
  | .response beacon =>
    match m.scanContext with
    | none => some (m.setScanCall i .handled)
    | some k =>
      m.withScanState k fun o =>
        (o.processResponse beacon outcome.pointer).map fun o =>
          (m.setScanState k o).setScanCall i .handled
  | .returned _ => none
  | .handled => none

/-- The next step of `scan_work` of scan state `k`. -/
def stepScanWork (m : Machine) (k : Nat) (o : ScanState) (outcome : ScanOutcome) :
    ScanPc → Option Machine
  | .stop => some (m.setScanState k ({ o with receiving := false }.goto (some .drain)))
  | .drain => o.drain.map fun (o, pc) => m.setScanState k (o.goto (some pc))
  | .readRsn beacon rsnSize => do
    match ← o.readRsn beacon rsnSize with
    | (o, .error ()) => o.leaveDrain.map fun pc => m.setScanState k (o.goto (some pc))
    | (o, .ok none) => some (m.setScanState k (o.goto (some .drain)))
    | (o, .ok (some beacon)) =>
      if ¬ outcome.allocated then some (m.setScanState k (o.goto (some .drain)))
      else
        let ap := beacon.accessPoint outcome.object
        if m.callers.cache.Allocated ap then none
        else
          some ((m.setCache (m.callers.cache.apAllocate ap outcome.node)).setScanState k
            (o.goto (some (.insert ap))))
  | .insert ap => do
    let cache ← m.callers.cache.insert m.callers.rounds ap
    some ((m.setCache cache).setScanState k (o.goto (some (.release ap))))
  | .release ap => do
    let cache ← m.callers.cache.apRelease ap
    some ((m.setCache cache).setScanState k (o.goto (some .drain)))
  | .setCurrent channel =>
    some (m.setScanState k ({ o with currentChannel := channel }.goto
      (some (.listen .setChannel))))
  | .listen line => some (m.listen k (o.goto (line.next.map .listen)) line)
  | .complete =>
    some ({ m with scanContext := none }.setScanState k (o.goto (some .enqueueCleanup)))
  | .enqueueCleanup =>
    some ({ m with
      scanCleanupWork := m.scanCleanupWork.enqueue
      -- a request that is ignored leaves the argument of the pending one
      scanCleanupArgument :=
        if m.scanCleanupWork.request = Request.idle then k
        else m.scanCleanupArgument }.setScanState k (o.goto none))

/-- One line of `destroy_scan_state`, then on at `next`. -/
def stepScanDestroy (m : Machine) (k : Nat) (next : ScanCleanupPc)
    (free : ScanState → Option ScanState) : Option Machine :=
  m.withScanState k fun o =>
    (free o).map fun o =>
      { m with scanCleanupWork := m.scanCleanupWork.goto (some next) }.setScanState k o

/-- The next step of `cleanup_scan`. -/
def stepScanCleanup (m : Machine) : ScanCleanupPc → Option Machine
  | .freeTimer k =>
    m.stepScanDestroy k (.freeWork k) fun o => some { o with work := o.work.freeTimer }
  | .freeWork k =>
    m.stepScanDestroy k (.freeBuffer k) fun o =>
      o.work.freeWork.map fun work => { o with work }
  | .freeBuffer k =>
    m.stepScanDestroy k (.freeState k) fun o => some { o with bufferFreed := true }
  | .freeState k => m.stepScanDestroy k (.last k) fun o => some { o with freed := true }
  | .last _ =>
    let association :=
      (setDeviceState m.system.association .scanning .down).getD m.system.association
    some { m with
      system := { m.system with association }
      scanWaiters := []
      scanCalls := wakeScanWaiters m.scanCalls m.scanWaiters
      scanCleanupWork := m.scanCleanupWork.goto none }

end Machine

/-! ## What an association does outside of its own fields -/

/-- `u80211_ap_hold` or `u80211_ap_release`. -/
inductive Counting where
  | hold (ap : AccessPoint)
  | release (ap : AccessPoint)

/-- The counter that a step of the association changes. -/
def System.counting (s : System) : Action → Option Counting
  | .advance i _ =>
    match s.calls[i]? with
    | some (.associateRelease _ _ disconnected) => disconnected.map .release
    | some (.associateCritical ap ies) =>
      (associate s.association ap s.nextContext ies).map fun _ => .hold ap
    | some (.deauthenticateRelease ap _) => some (.release ap)
    | some (.process _ message) => (associationProcess s.association message).held.map .hold
    | _ => none
  | .advanceCleanup =>
    match s.cleanupWork.running with
    | some (.releaseAp context _) => some (.release context.ap)
    | some (.releaseDisconnected _ disconnected) => disconnected.map .release
    | _ => none
  | _ => none

/-- The counters after the step; `none` when the access point has been freed. -/
def BssCache.count (c : BssCache) : Option Counting → Option BssCache
  | none => some c
  | some (.hold ap) => c.apHold ap
  | some (.release ap) => c.apRelease ap

/-- The channel that a step of the association tunes the radio to. -/
def System.tunes (s : System) : Action → Option Nat
  | .advance i _ =>
    match s.calls[i]? with
    | some (.associateSetChannel context) => some context.ap.channel.toNat
    | _ => none
  | _ => none

/-- The probe response that a step of the association hands to `u80211_scan_process_response`. -/
def System.responds (s : System) : Action → Option BeaconData
  | .advance i _ =>
    match s.calls[i]? with
    | some (.receive frame) =>
      match processManagementPacket s.ownAddress frame.header frame.data with
      | some (.scanProcessResponse beacon) => some beacon
      | _ => none
    | _ => none
  | _ => none

/-- The access point that a caller has passed to `u80211_associate`, up to the section that takes a
reference of its own. -/
def Call.borrowed : Call → Option AccessPoint
  | .associateEnter ap _ | .associateRelease ap _ _ | .associateAllocate ap _
  | .associateCritical ap _ => some ap
  | _ => none

namespace Machine

/-- A call to `u80211_associate` needs the access point. -/
def Borrowed (m : Machine) (ap : AccessPoint) : Prop :=
  ∃ c ∈ m.system.calls, Call.borrowed c = some ap

instance (m : Machine) (ap : AccessPoint) : Decidable (m.Borrowed ap) :=
  inferInstanceAs (Decidable (∃ _ ∈ _, _))

/-- What the callers of the association may do: `u80211_associate` gets an access point that they
own a reference to. The swaps of a scan are steps of the scan. -/
def Allows (m : Machine) : Action → Prop
  | .invoke (.associate ap _) => m.callers.owned ap ≠ 0
  | .scanBegin | .scanEnd => False
  | _ => True

instance (m : Machine) (action : Action) : Decidable (m.Allows action) := by
  unfold Allows
  split <;> infer_instance

/-- What the callers of the cache may do while the device is registered: they do not release an
access point that they have passed to a call that goes on. -/
def AllowsCache (m : Machine) : CacheAction → Prop
  | .release ap => m.callers.owned ap = 1 → ¬ m.Borrowed ap
  | .deinit => False
  | _ => True

instance (m : Machine) (action : CacheAction) : Decidable (m.AllowsCache action) := by
  unfold AllowsCache
  split <;> infer_instance

/-- A step of the association. -/
def stepAssociation (m : Machine) (action : Action) : Option Machine :=
  if ¬ m.Allows action then none
  else do
    let system ← U80211.step action m.system
    let cache ← m.callers.cache.count (m.system.counting action)
    some { m.setCache cache with
      system
      radio := (m.system.tunes action).or m.radio
      scanCalls := m.scanCalls ++ (m.system.responds action).toList.map .response }

/-! ## The machine -/

/-- The calls that other code makes into `src/scan.c`. -/
inductive ScanEntry where
  | scan
  | waitForScanCompletion
  | processResponse (beacon : BeaconData)

def ScanEntry.start : ScanEntry → ScanCall
  | .scan => .scanAllocate
  | .waitForScanCompletion => .waitAllocate
  | .processResponse beacon => .response beacon

inductive Event where
  /-- a step of the association -/
  | association (action : Action)
  /-- an operation of the cache or on a reference -/
  | cache (action : CacheAction)
  | invoke (entry : ScanEntry)
  | advance (i : Nat) (outcome : ScanOutcome)
  /-- the timer of scan state `k` expires -/
  | expire (k : Nat)
  | startWork (k : Nat)
  | advanceWork (k : Nat) (outcome : ScanOutcome)
  | startCleanup
  | advanceCleanup

/-- The step of an event; `none` when it is not enabled. -/
def step (event : Event) (m : Machine) : Option Machine :=
  match event with
  | .association action => m.stepAssociation action
  | .cache action =>
    if ¬ m.AllowsCache action then none
    else (CacheSystem.step action m.callers).map fun callers => { m with callers }
  | .invoke entry => some { m with scanCalls := m.scanCalls ++ [entry.start] }
  | .advance i outcome =>
    match m.scanCalls[i]? with
    | none => none
    | some c => m.stepScanCall i outcome c
  | .expire k =>
    m.withScanState k fun o =>
      o.work.expire.map fun work => m.setScanState k { o with work }
  | .startWork k =>
    m.withScanState k fun o =>
      (o.work.start .stop).map fun work => m.setScanState k { o with work }
  | .advanceWork k outcome =>
    m.withScanState k fun o =>
      match o.work.work.running with
      | none => none
      | some pc => m.stepScanWork k o outcome pc
  | .startCleanup =>
    (m.scanCleanupWork.start (.freeTimer m.scanCleanupArgument)).map fun w =>
      { m with scanCleanupWork := w }
  | .advanceCleanup =>
    match m.scanCleanupWork.running with
    | none => none
    | some pc => m.stepScanCleanup pc

abbrev Transition := Lts.Transition Machine Event

/-- A run of the machine from registration on. -/
abbrev Run (ownAddress : MacAddress) : List Transition → Machine → Prop :=
  Lts.Run step (.registered ownAddress)

/-- The states that the machine can be in. -/
abbrev Reachable (ownAddress : MacAddress) : Machine → Prop :=
  Lts.Reachable step (.registered ownAddress)

/-- `u80211_unregister_device`: the access points in memory afterwards. -/
def unregister (m : Machine) : Option BssCache := do
  let cache ← m.callers.cache.count (m.system.association.disconnectedAp.map .release)
  cache.deinit m.callers.rounds

end Machine

end U80211
