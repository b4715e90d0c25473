import Mathlib.Algebra.Ring.Int.Defs
import Mathlib.Logic.Function.Basic
import Mathlib.Tactic.Simps.Basic
import U80211.Lib.Lts
import U80211.Lib.Work
import U80211.Management

/-!
# The association machine under all interleavings

The state of the system is the guarded fields of the device, the work objects and timers of
every association context, and the position of every call, received frame and work callback in
its code. One step runs one critical section, one operation on a work object or timer, or one
`u80211_ap_release`; between two steps of a call any other step may be taken. The scan appears
with its two lock-free compare-and-swaps of the device state.

A step that touches a freed object has no meaning in C. Here the run goes on and a request to a
freed work object is ignored; theorems about such steps speak of the state in which the step is
about to be taken.
-/

namespace U80211

open WorkQueue

/-! ## Positions -/

/-- `auth_timeout` and `assoc_timeout`. -/
inductive TimeoutKind where
  | auth
  | assoc
deriving DecidableEq, Repr

/-- The `expected_state` that the two callbacks pass to `association_timeout`. -/
def TimeoutKind.expectedState : TimeoutKind → DeviceState
  | .auth => .authenticating
  | .assoc => .associating

/-- Positions in `association_timeout`. -/
inductive TimeoutPc where
  /-- before the critical section -/
  | critical
  /-- before `u80211_kernel_enqueue_work` of the cleanup -/
  | enqueueCleanup
deriving DecidableEq, Repr

/-- Positions in `auth_completion_work`. -/
inductive CompletionPc where
  /-- before `u80211_send_association_request`, which reads `device->ap` -/
  | sendAssociationRequest
  /-- before `u80211_kernel_enqueue_delayed_work` of the association timeout -/
  | enqueueTimeout
deriving DecidableEq, Repr

/-- Positions in `cleanup_association`, with the values of its locals `association_context` and
`disconnected_ap`; `freeAuthTimer` to `freeContext` are the lines of
`destroy_association_context`. -/
inductive CleanupPc where
  | first
  | releaseAp (context : AssociationContext) (disconnected : Option AccessPoint)
  | freeAuthTimer (context : AssociationContext) (disconnected : Option AccessPoint)
  | freeAssocTimer (context : AssociationContext) (disconnected : Option AccessPoint)
  | freeCompletionWork (context : AssociationContext) (disconnected : Option AccessPoint)
  | freeAuthTimeoutWork (context : AssociationContext) (disconnected : Option AccessPoint)
  | freeAssocTimeoutWork (context : AssociationContext) (disconnected : Option AccessPoint)
  | freeContext (context : AssociationContext) (disconnected : Option AccessPoint)
  | releaseDisconnected (context : Option AssociationContext) (disconnected : Option AccessPoint)
  | second (context : AssociationContext)
deriving DecidableEq

/-- A received frame: its header and its body after the receive path has removed the cipher
header and trailer, if there were any. -/
structure Frame where
  header : HeaderDescription
  data : List UInt8
deriving DecidableEq

/-- Positions of the calls into the library, with their arguments and locals. -/
inductive Call where
  /-- `u80211_associate`, before the section of `release_disconnected_ap` -/
  | associateEnter (ap : AccessPoint) (informationElements : List UInt8)
  /-- in `release_disconnected_ap`, before `u80211_ap_release` -/
  | associateRelease (ap : AccessPoint) (informationElements : List UInt8)
      (disconnected : Option AccessPoint)
  | associateAllocate (ap : AccessPoint) (informationElements : List UInt8)
  /-- before the critical section -/
  | associateCritical (ap : AccessPoint) (informationElements : List UInt8)
  /-- before `set_channel` -/
  | associateSetChannel (context : AssociationContext)
  /-- before `u80211_send_authentication` -/
  | associateSend (context : AssociationContext)
  /-- before `u80211_kernel_enqueue_delayed_work` of the authentication timeout -/
  | associateArm (context : AssociationContext)
  /-- `u80211_deauthenticate`, before its first section -/
  | deauthenticateFirst (reason : UInt16)
  /-- before `u80211_send_deauthentication` -/
  | deauthenticateSend (reason : UInt16) (address : MacAddress)
  /-- before its second section -/
  | deauthenticateSecond (status : Status)
  /-- before `u80211_ap_release` -/
  | deauthenticateRelease (disconnected : AccessPoint) (status : Status)
  /-- `u80211_wait_for_association_completion`, before the allocation of the semaphore -/
  | waitAllocate
  /-- before the critical section -/
  | waitCritical
  /-- in `u80211_kernel_wait_semaphore`, with the count of the semaphore and the `result` of the
  waiter -/
  | waiting (semaphore : Nat) (result : Status)
  /-- a received management frame, before the checks of its handler -/
  | receive (frame : Frame)
  /-- before `u80211_association_is_duplicate`; a data frame has no message -/
  | filter (frame : Frame) (expectedState : DeviceState) (message : Option Message)
  /-- before the section that processes the message -/
  | process (frame : Frame) (message : Message)
  /-- before `u80211_kernel_enqueue_work` of the cleanup -/
  | enqueueCleanup
  /-- a call that has returned a status -/
  | returned (status : Status)
  /-- a received frame that has been handled -/
  | handled
deriving DecidableEq

/-! ## State -/

/-- The work objects and timers of an association context. -/
structure ContextObjects where
  context : AssociationContext
  completionWork : Work CompletionPc
  timeoutWork : TimeoutKind → DelayedWork TimeoutPc
  /-- the structure itself has been freed -/
  freed : Bool

/-- A context as `u80211_associate` allocates it. -/
def ContextObjects.allocate (context : AssociationContext) : ContextObjects where
  context := context
  completionWork := .allocate
  timeoutWork := fun _ => .allocate
  freed := false

namespace ContextObjects

@[simps] def updateCompletion (o : ContextObjects) (w : Work CompletionPc) : ContextObjects :=
  { o with completionWork := w }

@[simps] def updateTimeout (o : ContextObjects) (kind : TimeoutKind) (w : DelayedWork TimeoutPc) :
    ContextObjects :=
  { o with timeoutWork := Function.update o.timeoutWork kind w }

/-- `destroy_association_context` has freed something of the context. -/
def Destroyed (o : ContextObjects) : Prop :=
  (o.timeoutWork .auth).timerFreed = true ∨ (o.timeoutWork .assoc).timerFreed = true ∨
    o.completionWork.freed = true ∨ (o.timeoutWork .auth).work.freed = true ∨
    (o.timeoutWork .assoc).work.freed = true ∨ o.freed = true

instance : DecidablePred Destroyed := fun _ => inferInstanceAs (Decidable (_ ∨ _))

end ContextObjects

structure System where
  /-- `device->metadata.mac_address` -/
  ownAddress : MacAddress
  association : Association
  /-- the next address that an association context is allocated at -/
  nextContext : Nat
  objects : Nat → Option ContextObjects
  calls : List Call
  /-- `device->association_cleanup_work` -/
  cleanupWork : Work CleanupPc
  /-- how often `association.c` has called `u80211_ap_hold`, less how often it has called
  `u80211_ap_release` -/
  references : AccessPoint → Int

/-- The system as `u80211_register_device` leaves it. -/
def System.registered (ownAddress : MacAddress) : System where
  ownAddress := ownAddress
  association := .registered
  nextContext := 0
  objects := fun _ => none
  calls := []
  cleanupWork := .allocate
  references := fun _ => 0

namespace System

@[simps] def setCall (s : System) (i : Nat) (c : Call) : System :=
  { s with calls := s.calls.set i c }

@[simps] def setObjects (s : System) (k : Nat) (o : ContextObjects) : System :=
  { s with objects := Function.update s.objects k (some o) }

/-- `u80211_ap_hold`, where there is something to hold. -/
@[simps ownAddress association nextContext objects calls cleanupWork]
def hold (s : System) (ap : Option AccessPoint) : System :=
  { s with references := fun a => if ap = some a then s.references a + 1 else s.references a }

/-- `u80211_ap_release`, where there is something to release. -/
@[simps ownAddress association nextContext objects calls cleanupWork]
def release (s : System) (ap : Option AccessPoint) : System :=
  { s with references := fun a => if ap = some a then s.references a - 1 else s.references a }

/-- `u80211_kernel_enqueue_work(ctx->completion_work, auth_completion_work, ctx)` -/
@[simps] def enqueueCompletion (s : System) (k : Nat) : System :=
  { s with
    objects := Function.update s.objects k
      ((s.objects k).map fun o => o.updateCompletion o.completionWork.enqueue) }

/-- What a section that handles a frame or a timeout does before it releases the lock. -/
def applySection (s : System) (r : SectionResult) : System :=
  let s := { s with association := r.association }.hold r.held
  match r.completion with
  | none => s
  | some context => s.enqueueCompletion context.id

/-- Signal the semaphore of one waiter. -/
def signal (result : Status) (calls : List Call) (waiter : Nat) : List Call :=
  match calls[waiter]? with
  | some (.waiting semaphore _) => calls.set waiter (.waiting (semaphore + 1) result)
  | _ => calls

/-- `wake_association_waiters` -/
def wakeAssociationWaiters (calls : List Call) (waiters : List Nat) (result : Status) :
    List Call :=
  waiters.foldl (signal result) calls

end System

/-! ## Steps of a call -/

/-- `ASSOCIATION_INFORMATION_ELEMENTS_MAX_SIZE` -/
def associationInformationElementsMaxSize : Nat := 1024

/-- What the kernel and the driver answer to a step: whether its allocations succeed, and the
status of its driver operation. -/
structure Outcome where
  allocated : Bool := true
  status : Status := .success
deriving DecidableEq

/-- The position that a plan starts a handler at. -/
def ManagementPlan.next (frame : Frame) : ManagementPlan → Call
  | .ignore => .handled
  | .filter expectedState message => .filter frame expectedState (some message)
  | .process message => .process frame message
  | .scanProcessResponse _ => .handled

/-- Take a step on the objects of context `k`. -/
def stepObjects (s : System) (k : Nat) (f : ContextObjects → Option System) : Option System :=
  match s.objects k with
  | none => none
  | some o => f o

/-- The next step of call `i`, which stands at the given position. -/
def stepCall (s : System) (i : Nat) (outcome : Outcome) : Call → Option System
  | .associateEnter ap ies =>
    if associationInformationElementsMaxSize < ies.length then
      some (s.setCall i (.returned .notEnoughSpace))
    else
      let (disconnected, a) := releaseDisconnectedAp s.association
      some ({ s with association := a }.setCall i (.associateRelease ap ies disconnected))
  | .associateRelease ap ies disconnected =>
    some ((s.release disconnected).setCall i (.associateAllocate ap ies))
  | .associateAllocate ap ies =>
    -- one step for all the allocations: nobody else knows of the context yet
    if outcome.allocated then some (s.setCall i (.associateCritical ap ies))
    else some (s.setCall i (.returned .enomem))
  | .associateCritical ap ies =>
    match associate s.association ap s.nextContext ies with
    -- the context is destroyed again before anyone has seen it
    | none => some (s.setCall i (.returned .busy))
    | some (context, a) =>
      some ((({ s with association := a, nextContext := s.nextContext + 1 }.hold (some ap)
        ).setObjects context.id (.allocate context)).setCall i (.associateSetChannel context))
  | .associateSetChannel context => some (s.setCall i (.associateSend context))
  | .associateSend context => some (s.setCall i (.associateArm context))
  | .associateArm context =>
    -- the objects are used as they are, also when they have been freed in the meantime
    stepObjects s context.id fun o =>
      some ((s.setObjects context.id (o.updateTimeout .auth (o.timeoutWork .auth).enqueue)
        ).setCall i (.returned .success))
  | .deauthenticateFirst reason =>
    match deauthenticateFirst s.association with
    | none => some (s.setCall i (.returned .notAssociated))
    | some (address, a) =>
      some ({ s with association := a }.setCall i (.deauthenticateSend reason address))
  | .deauthenticateSend _ _ => some (s.setCall i (.deauthenticateSecond outcome.status))
  | .deauthenticateSecond status =>
    match deauthenticateSecond s.association with
    | (none, a) => some ({ s with association := a }.setCall i (.returned status))
    | (some ap, a) =>
      some ({ s with association := a }.setCall i (.deauthenticateRelease ap status))
  | .deauthenticateRelease disconnected status =>
    some ((s.release (some disconnected)).setCall i (.returned status))
  | .waitAllocate =>
    if outcome.allocated then some (s.setCall i .waitCritical)
    else some (s.setCall i (.returned .retry))
  | .waitCritical =>
    match waitForAssociationCompletion s.association i with
    | (some result, a) => some ({ s with association := a }.setCall i (.returned result))
    | (none, a) => some ({ s with association := a }.setCall i (.waiting 0 .success))
  | .waiting semaphore result =>
    if semaphore = 0 then none else some (s.setCall i (.returned result))
  | .receive frame =>
    match processManagementPacket s.ownAddress frame.header frame.data with
    | none => none
    | some plan => some (s.setCall i (plan.next frame))
  | .filter frame expectedState message =>
    -- of a data frame nothing that comes after the filter concerns the association
    let (duplicate, a) := associationIsDuplicate s.association frame.header expectedState
    let next :=
      match message with
      | none => .handled
      | some message => if duplicate then .handled else .process frame message
    some ({ s with association := a }.setCall i next)
  | .process _ message =>
    -- the cleanup is queued after the lock has been released, in a step of its own
    let r := associationProcess s.association message
    some ((s.applySection r).setCall i (if r.cleanupNeeded then .enqueueCleanup else .handled))
  | .enqueueCleanup =>
    some ({ s with cleanupWork := s.cleanupWork.enqueue }.setCall i .handled)
  | .returned _ => none
  | .handled => none

/-! ## Steps of the work callbacks -/

/-- The next step of a timeout callback of context `k`. -/
def stepTimeout (s : System) (k : Nat) (kind : TimeoutKind) (o : ContextObjects) :
    TimeoutPc → System
  | .critical =>
    let r := associationTimeout s.association o.context kind.expectedState
    let next := if r.cleanupNeeded then some TimeoutPc.enqueueCleanup else none
    (s.applySection r).setObjects k (o.updateTimeout kind ((o.timeoutWork kind).goto next))
  | .enqueueCleanup =>
    { s with cleanupWork := s.cleanupWork.enqueue }.setObjects k
      (o.updateTimeout kind ((o.timeoutWork kind).goto none))

/-- The next step of `auth_completion_work` of context `k`. -/
def stepCompletion (s : System) (k : Nat) (o : ContextObjects) : CompletionPc → System
  | .sendAssociationRequest =>
    s.setObjects k (o.updateCompletion (o.completionWork.goto (some .enqueueTimeout)))
  | .enqueueTimeout =>
    s.setObjects k ((o.updateCompletion (o.completionWork.goto none)).updateTimeout .assoc
      (o.timeoutWork .assoc).enqueue)

/-- One line of `destroy_association_context`, then on at `next`. -/
def stepDestroy (s : System) (context : AssociationContext) (next : CleanupPc)
    (free : ContextObjects → Option ContextObjects) : Option System :=
  stepObjects s context.id fun o =>
    (free o).map fun o =>
      { s with cleanupWork := s.cleanupWork.goto (some next) }.setObjects context.id o

/-- `u80211_kernel_free_timer` -/
def ContextObjects.freeTimer (kind : TimeoutKind) (o : ContextObjects) : Option ContextObjects :=
  some (o.updateTimeout kind (o.timeoutWork kind).freeTimer)

/-- `u80211_kernel_free_work(association_context->completion_work)` -/
def ContextObjects.freeCompletionWork (o : ContextObjects) : Option ContextObjects :=
  o.completionWork.free.map o.updateCompletion

/-- `u80211_kernel_free_work` of a timeout's work object. -/
def ContextObjects.freeTimeoutWork (kind : TimeoutKind) (o : ContextObjects) :
    Option ContextObjects :=
  (o.timeoutWork kind).freeWork.map (o.updateTimeout kind)

/-- The next step of `cleanup_association`. -/
def stepCleanup (s : System) : CleanupPc → Option System
  | .first =>
    let (context, disconnected, a) := cleanupAssociationFirst s.association
    let next :=
      match context with
      | none => .releaseDisconnected none disconnected
      | some context => .releaseAp context disconnected
    some { s with association := a, cleanupWork := s.cleanupWork.goto (some next) }
  | .releaseAp context disconnected =>
    some { s.release (some context.ap) with
      cleanupWork := s.cleanupWork.goto (some (.freeAuthTimer context disconnected)) }
  | .freeAuthTimer context disconnected =>
    stepDestroy s context (.freeAssocTimer context disconnected) (·.freeTimer .auth)
  | .freeAssocTimer context disconnected =>
    stepDestroy s context (.freeCompletionWork context disconnected) (·.freeTimer .assoc)
  | .freeCompletionWork context disconnected =>
    stepDestroy s context (.freeAuthTimeoutWork context disconnected) (·.freeCompletionWork)
  | .freeAuthTimeoutWork context disconnected =>
    stepDestroy s context (.freeAssocTimeoutWork context disconnected) (·.freeTimeoutWork .auth)
  | .freeAssocTimeoutWork context disconnected =>
    stepDestroy s context (.freeContext context disconnected) (·.freeTimeoutWork .assoc)
  | .freeContext context disconnected =>
    stepDestroy s context (.releaseDisconnected (some context) disconnected)
      fun o => some { o with freed := true }
  | .releaseDisconnected context disconnected =>
    -- without a context there is no second section
    some { s.release disconnected with
      cleanupWork := s.cleanupWork.goto (context.map .second) }
  | .second _ =>
    let (waiters, result, a) := cleanupAssociationSecond s.association
    some { s with
      association := a
      calls := System.wakeAssociationWaiters s.calls waiters result
      cleanupWork := s.cleanupWork.goto none }

/-! ## The system -/

/-- The calls that other code makes into the library. -/
inductive Entry where
  | associate (ap : AccessPoint) (informationElements : List UInt8)
  | disassociate
  | waitForAssociationCompletion
  /-- a management frame that `u80211_process_packet` hands on -/
  | receiveManagement (frame : Frame)
  /-- a data frame that `u80211_process_packet` checks for duplicates -/
  | receiveData (frame : Frame)

/-- `DEAUTHENTICATION_REASON_LEAVING` -/
def deauthenticationReasonLeaving : UInt16 := 3

def Entry.start : Entry → Call
  | .associate ap ies => .associateEnter ap ies
  | .disassociate => .deauthenticateFirst deauthenticationReasonLeaving
  | .waitForAssociationCompletion => .waitAllocate
  | .receiveManagement frame => .receive frame
  | .receiveData frame => .filter frame .associated none

inductive Action where
  /-- a thread or an interrupt enters the library -/
  | invoke (entry : Entry)
  /-- call `i` takes its next step -/
  | advance (i : Nat) (outcome : Outcome)
  /-- the timer of a timeout of context `k` expires -/
  | expire (k : Nat) (kind : TimeoutKind)
  | startTimeout (k : Nat) (kind : TimeoutKind)
  | advanceTimeout (k : Nat) (kind : TimeoutKind)
  | startCompletion (k : Nat)
  | advanceCompletion (k : Nat)
  | startCleanup
  | advanceCleanup
  /-- the swap from down to scanning in `u80211_scan` -/
  | scanBegin
  /-- the swap from scanning to down in `cleanup_scan` -/
  | scanEnd

/-- The step of an action; `none` when it is not enabled. -/
def step (action : Action) (s : System) : Option System :=
  match action with
  | .invoke entry => some { s with calls := s.calls ++ [entry.start] }
  | .advance i outcome =>
    match s.calls[i]? with
    | none => none
    | some c => stepCall s i outcome c
  | .expire k kind =>
    stepObjects s k fun o =>
      (o.timeoutWork kind).expire.map fun w => s.setObjects k (o.updateTimeout kind w)
  | .startTimeout k kind =>
    stepObjects s k fun o =>
      ((o.timeoutWork kind).start .critical).map fun w =>
        s.setObjects k (o.updateTimeout kind w)
  | .advanceTimeout k kind =>
    stepObjects s k fun o =>
      (o.timeoutWork kind).work.running.map fun pc => stepTimeout s k kind o pc
  | .startCompletion k =>
    stepObjects s k fun o =>
      (o.completionWork.start .sendAssociationRequest).map fun w =>
        s.setObjects k (o.updateCompletion w)
  | .advanceCompletion k =>
    stepObjects s k fun o =>
      o.completionWork.running.map fun pc => stepCompletion s k o pc
  | .startCleanup => (s.cleanupWork.start .first).map fun w => { s with cleanupWork := w }
  | .advanceCleanup =>
    match s.cleanupWork.running with
    | none => none
    | some pc => stepCleanup s pc
  | .scanBegin =>
    some { s with
      association := (setDeviceState s.association .down .scanning).getD s.association }
  | .scanEnd =>
    some { s with
      association := (setDeviceState s.association .scanning .down).getD s.association }

abbrev Transition := Lts.Transition System Action

/-- A run of the system from registration on. -/
abbrev Run (ownAddress : MacAddress) : List Transition → System → Prop :=
  Lts.Run step (.registered ownAddress)

/-- The states that the system can be in. -/
abbrev Reachable (ownAddress : MacAddress) : System → Prop :=
  Lts.Reachable step (.registered ownAddress)

end U80211
