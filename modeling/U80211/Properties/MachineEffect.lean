import U80211.Machine
import U80211.Properties.Consistency

/-!
# What one step of the whole device can do

`Effect m event m'` lists the steps of the machine, one constructor for each line of `src/scan.c`
that matters to another thread; an association and the callers of the cache take a step each. The
invariants of the files on scans are proved by cases on it.

* `step_effect`: every step is one of them
* `Run.system`: a run of the machine is a run of the system of `U80211/System.lean`
-/

namespace U80211

open WorkQueue

namespace Machine

variable {m m' : Machine} {event : Event} {own : MacAddress}

/-- A step of a call that changes nothing but its position. -/
inductive Quiet (m : Machine) : ScanCall → ScanCall → Prop
  | failed {status} : Quiet m .scanAllocate (.returned status)
  | waitAllocated : Quiet m .waitAllocate .waitCritical
  | retry : Quiet m .waitAllocate (.returned .retry)
  | answered (hs : m.system.association.state ≠ .scanning) :
      Quiet m .waitCritical (.returned .success)
  | woken {semaphore} (hn : semaphore ≠ 0) : Quiet m (.waiting semaphore) (.returned .success)
  | ignored {beacon} (hx : m.scanContext = none) : Quiet m (.response beacon) .handled

/-- What the second read of a record and the checks after it lead to, when no access point is
allocated. -/
inductive Passes (o : ScanState) (beacon : BeaconData) (rsnSize : UInt64) (outcome : ScanOutcome) :
    ScanState → ScanPc → Prop
  | short {o' pc} (hr : o.readRsn beacon rsnSize = some (o', .error ()))
      (hl : o'.leaveDrain = some pc) : Passes o beacon rsnSize outcome o' pc
  | skipped {o'} (hr : o.readRsn beacon rsnSize = some (o', .ok none)) :
      Passes o beacon rsnSize outcome o' .drain
  | enomem {o' b} (hr : o.readRsn beacon rsnSize = some (o', .ok (some b)))
      (ha : outcome.allocated = false) : Passes o beacon rsnSize outcome o' .drain

/-- The line of `destroy_scan_state` at `pc`, with the position after it and the state of the scan
before and after. -/
inductive Destroys (k : Nat) : ScanCleanupPc → ScanCleanupPc → ScanState → ScanState → Prop
  | timer {o} : Destroys k (.freeTimer k) (.freeWork k) o { o with work := o.work.freeTimer }
  | work {o work} (hw : o.work.freeWork = some work) :
      Destroys k (.freeWork k) (.freeBuffer k) o { o with work }
  | buffer {o} : Destroys k (.freeBuffer k) (.freeState k) o { o with bufferFreed := true }
  | state {o} : Destroys k (.freeState k) (.last k) o { o with freed := true }

/-- What `u80211_set_device_state` leaves behind when the swap succeeds. -/
def withState (m : Machine) (state : DeviceState) : Machine :=
  { m with system := { m.system with association := { m.system.association with state } } }

/-- **What one step of the machine can do.** -/
inductive Effect (m : Machine) : Event → Machine → Prop
  | association {action : Action} {system : System} {cache : BssCache} (ha : m.Allows action)
      (hs : U80211.step action m.system = some system)
      (hc : m.callers.cache.count (m.system.counting action) = some cache) :
      Effect m (.association action)
        { m.setCache cache with
          system
          radio := (m.system.tunes action).or m.radio
          scanCalls := m.scanCalls ++ (m.system.responds action).toList.map .response }
  | cache {action : CacheAction} {callers : CacheSystem} (ha : m.AllowsCache action)
      (hs : CacheSystem.step action m.callers = some callers) :
      Effect m (.cache action) { m with callers }
  | invoke {entry : ScanEntry} :
      Effect m (.invoke entry) { m with scanCalls := m.scanCalls ++ [entry.start] }
  | quiet {i : Nat} {outcome : ScanOutcome} {c c' : ScanCall} (hc : m.scanCalls[i]? = some c)
      (hq : Quiet m c c') : Effect m (.advance i outcome) (m.setScanCall i c')
  | allocate {i channel : Nat} {outcome : ScanOutcome} {buffer : RingBuffer}
      (hc : m.scanCalls[i]? = some .scanAllocate)
      (hb : ringbufferInit bufferSize (some outcome.memory) = .ok buffer)
      (hn : nextChannel 0 = some (some channel)) :
      Effect m (.advance i outcome)
        (({ m with nextScanState := m.nextScanState + 1 }.setScanState m.nextScanState
          (.allocate buffer channel)).setScanCall i (.scanClaim m.nextScanState))
  | claim {i k : Nat} {outcome : ScanOutcome} (hc : m.scanCalls[i]? = some (.scanClaim k))
      (hs : m.system.association.state = .down) :
      Effect m (.advance i outcome) ((m.withState .scanning).setScanCall i (.scanPublish k))
  | busy {i k : Nat} {outcome : ScanOutcome} {o : ScanState}
      (hc : m.scanCalls[i]? = some (.scanClaim k)) (ho : m.scanStates k = some o)
      (hs : m.system.association.state ≠ .down) :
      Effect m (.advance i outcome) ((m.setScanState k o.destroy).setScanCall i (.returned .busy))
  | publish {i k : Nat} {outcome : ScanOutcome} (hc : m.scanCalls[i]? = some (.scanPublish k)) :
      Effect m (.advance i outcome) ({ m with scanContext := some k }.setScanCall i (.scanPurge k))
  | purge {i k : Nat} {outcome : ScanOutcome} {cache : BssCache}
      (hc : m.scanCalls[i]? = some (.scanPurge k))
      (hp : m.callers.cache.purge m.callers.rounds = some cache) :
      Effect m (.advance i outcome) ((m.setCache cache).setScanCall i (.scanListen k .setChannel))
  | listenCall {i k : Nat} {outcome : ScanOutcome} {line : Listen} {o : ScanState}
      (hc : m.scanCalls[i]? = some (.scanListen k line)) (ho : m.scanStates k = some o) :
      Effect m (.advance i outcome)
        ((m.listen k o line).setScanCall i
          (match line.next with
          | none => .returned .success
          | some line => .scanListen k line))
  | wait {i : Nat} {outcome : ScanOutcome} (hc : m.scanCalls[i]? = some .waitCritical)
      (hs : m.system.association.state = .scanning) :
      Effect m (.advance i outcome)
        ({ m with scanWaiters := m.scanWaiters ++ [i] }.setScanCall i (.waiting 0))
  | response {i k : Nat} {outcome : ScanOutcome} {beacon : BeaconData} {o o' : ScanState}
      (hc : m.scanCalls[i]? = some (.response beacon)) (hx : m.scanContext = some k)
      (ho : m.scanStates k = some o)
      (hr : o.processResponse beacon outcome.pointer = some o') :
      Effect m (.advance i outcome) ((m.setScanState k o').setScanCall i .handled)
  | expire {k : Nat} {o : ScanState} {work : DelayedWork ScanPc} (ho : m.scanStates k = some o)
      (hw : o.work.expire = some work) : Effect m (.expire k) (m.setScanState k { o with work })
  | startWork {k : Nat} {o : ScanState} {work : DelayedWork ScanPc} (ho : m.scanStates k = some o)
      (hw : o.work.start .stop = some work) :
      Effect m (.startWork k) (m.setScanState k { o with work })
  | stop {k : Nat} {outcome : ScanOutcome} {o : ScanState} (ho : m.scanStates k = some o)
      (hw : o.work.work.running = some .stop) :
      Effect m (.advanceWork k outcome)
        (m.setScanState k ({ o with receiving := false }.goto (some .drain)))
  | drain {k : Nat} {outcome : ScanOutcome} {o o' : ScanState} {pc : ScanPc}
      (ho : m.scanStates k = some o) (hw : o.work.work.running = some .drain)
      (hd : o.drain = some (o', pc)) :
      Effect m (.advanceWork k outcome) (m.setScanState k (o'.goto (some pc)))
  | pass {k : Nat} {outcome : ScanOutcome} {o o' : ScanState} {beacon : BeaconData}
      {rsnSize : UInt64} {pc : ScanPc} (ho : m.scanStates k = some o)
      (hw : o.work.work.running = some (.readRsn beacon rsnSize))
      (hp : Passes o beacon rsnSize outcome o' pc) :
      Effect m (.advanceWork k outcome) (m.setScanState k (o'.goto (some pc)))
  | allocateAp {k : Nat} {outcome : ScanOutcome} {o o' : ScanState} {beacon b : BeaconData}
      {rsnSize : UInt64} (ho : m.scanStates k = some o)
      (hw : o.work.work.running = some (.readRsn beacon rsnSize))
      (hr : o.readRsn beacon rsnSize = some (o', .ok (some b)))
      (ha : outcome.allocated = true)
      (hn : ¬ m.callers.cache.Allocated (b.accessPoint outcome.object)) :
      Effect m (.advanceWork k outcome)
        ((m.setCache (m.callers.cache.apAllocate (b.accessPoint outcome.object) outcome.node)
          ).setScanState k (o'.goto (some (.insert (b.accessPoint outcome.object)))))
  | insert {k : Nat} {outcome : ScanOutcome} {o : ScanState} {ap : AccessPoint} {cache : BssCache}
      (ho : m.scanStates k = some o) (hw : o.work.work.running = some (.insert ap))
      (hi : m.callers.cache.insert m.callers.rounds ap = some cache) :
      Effect m (.advanceWork k outcome)
        ((m.setCache cache).setScanState k (o.goto (some (.release ap))))
  | release {k : Nat} {outcome : ScanOutcome} {o : ScanState} {ap : AccessPoint} {cache : BssCache}
      (ho : m.scanStates k = some o) (hw : o.work.work.running = some (.release ap))
      (hr : m.callers.cache.apRelease ap = some cache) :
      Effect m (.advanceWork k outcome)
        ((m.setCache cache).setScanState k (o.goto (some .drain)))
  | setCurrent {k channel : Nat} {outcome : ScanOutcome} {o : ScanState}
      (ho : m.scanStates k = some o) (hw : o.work.work.running = some (.setCurrent channel)) :
      Effect m (.advanceWork k outcome)
        (m.setScanState k ({ o with currentChannel := channel }.goto
          (some (.listen .setChannel))))
  | listenWork {k : Nat} {outcome : ScanOutcome} {o : ScanState} {line : Listen}
      (ho : m.scanStates k = some o) (hw : o.work.work.running = some (.listen line)) :
      Effect m (.advanceWork k outcome) (m.listen k (o.goto (line.next.map .listen)) line)
  | complete {k : Nat} {outcome : ScanOutcome} {o : ScanState} (ho : m.scanStates k = some o)
      (hw : o.work.work.running = some .complete) :
      Effect m (.advanceWork k outcome)
        ({ m with scanContext := none }.setScanState k (o.goto (some .enqueueCleanup)))
  | enqueueCleanup {k : Nat} {outcome : ScanOutcome} {o : ScanState}
      (ho : m.scanStates k = some o) (hw : o.work.work.running = some .enqueueCleanup) :
      Effect m (.advanceWork k outcome)
        ({ m with
          scanCleanupWork := m.scanCleanupWork.enqueue
          scanCleanupArgument :=
            if m.scanCleanupWork.request = Request.idle then k
            else m.scanCleanupArgument }.setScanState k (o.goto none))
  | startCleanup {w : Work ScanCleanupPc}
      (hw : m.scanCleanupWork.start (.freeTimer m.scanCleanupArgument) = some w) :
      Effect m .startCleanup { m with scanCleanupWork := w }
  | destroy {k : Nat} {o o' : ScanState} {pc next : ScanCleanupPc}
      (hw : m.scanCleanupWork.running = some pc) (ho : m.scanStates k = some o)
      (hd : Destroys k pc next o o') :
      Effect m .advanceCleanup
        ({ m with scanCleanupWork := m.scanCleanupWork.goto (some next) }.setScanState k o')
  | last {k : Nat} {system : System} (hw : m.scanCleanupWork.running = some (.last k))
      (hs : U80211.step .scanEnd m.system = some system) :
      Effect m .advanceCleanup
        { m with
          system
          scanWaiters := []
          scanCalls := wakeScanWaiters m.scanCalls m.scanWaiters
          scanCleanupWork := m.scanCleanupWork.goto none }

theorem withScanState_eq_some {k : Nat} {f : ScanState → Option Machine}
    (h : m.withScanState k f = some m') : ∃ o, m.scanStates k = some o ∧ f o = some m' := by
  unfold withScanState at h
  split at h
  · cases h
  · next o ho => exact ⟨o, ho, h⟩

/-- The steps of the calls of `src/scan.c`. -/
theorem stepScanCall_effect {i : Nat} {outcome : ScanOutcome} {c : ScanCall}
    (hc : m.scanCalls[i]? = some c) (hs : m.stepScanCall i outcome c = some m') :
    Effect m (.advance i outcome) m' := by
  cases c with
  | scanAllocate =>
    simp only [stepScanCall] at hs
    split at hs
    · cases hs
      exact .quiet hc .failed
    · next buffer hb =>
      obtain ⟨next, hn, hs⟩ := Option.bind_eq_some_iff.mp hs
      cases hmem : outcome.allocated with
      | false =>
        rw [hmem] at hb
        cases hb
      | true =>
        rw [hmem] at hb
        cases next with
        | none => cases hs; exact .quiet hc .failed
        | some channel => cases hs; exact .allocate hc hb hn
  | scanClaim k =>
    simp only [stepScanCall] at hs
    split at hs
    · next hd =>
      obtain ⟨o, ho, hs⟩ := withScanState_eq_some hs
      cases hs
      refine .busy hc ho fun hst => ?_
      rw [setDeviceState, if_pos hst] at hd
      cases hd
    · next a hd =>
      cases hs
      unfold setDeviceState at hd
      split at hd
      · next hst =>
        cases hd
        exact .claim hc hst
      · cases hd
  | scanPublish k => cases hs; exact .publish hc
  | scanPurge k =>
    obtain ⟨cache, hp, hs⟩ := Option.bind_eq_some_iff.mp hs
    cases hs
    exact .purge hc hp
  | scanListen k line =>
    obtain ⟨o, ho, hs⟩ := withScanState_eq_some hs
    cases hs
    exact .listenCall hc ho
  | waitAllocate =>
    simp only [stepScanCall] at hs
    split at hs
    · cases hs; exact .quiet hc .waitAllocated
    · cases hs; exact .quiet hc .retry
  | waitCritical =>
    simp only [stepScanCall] at hs
    split at hs
    · next hst => cases hs; exact .quiet hc (.answered hst)
    · next hst => cases hs; exact .wait hc (not_not.mp hst)
  | waiting semaphore =>
    simp only [stepScanCall] at hs
    split at hs
    · cases hs
    · next hn => cases hs; exact .quiet hc (.woken hn)
  | response beacon =>
    simp only [stepScanCall] at hs
    split at hs
    · next hx => cases hs; exact .quiet hc (.ignored hx)
    · next k hx =>
      obtain ⟨o, ho, hs⟩ := withScanState_eq_some hs
      obtain ⟨o', hr, rfl⟩ := Option.map_eq_some_iff.mp hs
      exact .response hc hx ho hr
  | returned status => cases hs
  | handled => cases hs

/-- The steps of `scan_work`. -/
theorem stepScanWork_effect {k : Nat} {o : ScanState} {outcome : ScanOutcome} {pc : ScanPc}
    (ho : m.scanStates k = some o) (hw : o.work.work.running = some pc)
    (hs : m.stepScanWork k o outcome pc = some m') : Effect m (.advanceWork k outcome) m' := by
  cases pc with
  | stop => cases hs; exact .stop ho hw
  | drain =>
    obtain ⟨⟨o', pc⟩, hd, rfl⟩ := Option.map_eq_some_iff.mp hs
    exact .drain ho hw hd
  | readRsn beacon rsnSize =>
    obtain ⟨⟨o', r⟩, hr, hs⟩ := Option.bind_eq_some_iff.mp hs
    match r with
    | .error () =>
      obtain ⟨pc, hl, rfl⟩ := Option.map_eq_some_iff.mp hs
      exact .pass ho hw (.short hr hl)
    | .ok none => cases hs; exact .pass ho hw (.skipped hr)
    | .ok (some b) =>
      dsimp only at hs
      cases ha : outcome.allocated with
      | false =>
        rw [if_pos (by simp [ha])] at hs
        cases hs
        exact .pass ho hw (.enomem hr ha)
      | true =>
        rw [if_neg (by simp [ha])] at hs
        split at hs
        · cases hs
        · next hn => cases hs; exact .allocateAp ho hw hr ha hn
  | insert ap =>
    obtain ⟨cache, hi, hs⟩ := Option.bind_eq_some_iff.mp hs
    cases hs
    exact .insert ho hw hi
  | release ap =>
    obtain ⟨cache, hr, hs⟩ := Option.bind_eq_some_iff.mp hs
    cases hs
    exact .release ho hw hr
  | setCurrent channel => cases hs; exact .setCurrent ho hw
  | listen line => cases hs; exact .listenWork ho hw
  | complete => cases hs; exact .complete ho hw
  | enqueueCleanup => cases hs; exact .enqueueCleanup ho hw

theorem stepScanDestroy_eq_some {k : Nat} {next : ScanCleanupPc}
    {free : ScanState → Option ScanState} (h : m.stepScanDestroy k next free = some m') :
    ∃ o o', m.scanStates k = some o ∧ free o = some o' ∧
      m' = { m with scanCleanupWork := m.scanCleanupWork.goto (some next) }.setScanState k o' := by
  obtain ⟨o, ho, h⟩ := withScanState_eq_some h
  obtain ⟨o', ho', rfl⟩ := Option.map_eq_some_iff.mp h
  exact ⟨o, o', ho, ho', rfl⟩

/-- The steps of `cleanup_scan`. -/
theorem stepScanCleanup_effect {pc : ScanCleanupPc} (hw : m.scanCleanupWork.running = some pc)
    (hs : m.stepScanCleanup pc = some m') : Effect m .advanceCleanup m' := by
  cases pc with
  | freeTimer k =>
    obtain ⟨o, o', ho, hf, rfl⟩ := stepScanDestroy_eq_some hs
    cases hf
    exact .destroy hw ho .timer
  | freeWork k =>
    obtain ⟨o, o', ho, hf, rfl⟩ := stepScanDestroy_eq_some hs
    obtain ⟨work, hfree, rfl⟩ := Option.map_eq_some_iff.mp hf
    exact .destroy hw ho (.work hfree)
  | freeBuffer k =>
    obtain ⟨o, o', ho, hf, rfl⟩ := stepScanDestroy_eq_some hs
    cases hf
    exact .destroy hw ho .buffer
  | freeState k =>
    obtain ⟨o, o', ho, hf, rfl⟩ := stepScanDestroy_eq_some hs
    cases hf
    exact .destroy hw ho .state
  | last k => cases hs; exact .last hw rfl

/-- **Every step of the machine is one of the listed ones.** -/
theorem step_effect (hs : step event m = some m') : Effect m event m' := by
  cases event with
  | association action =>
    simp only [step, stepAssociation] at hs
    split at hs
    · cases hs
    · next ha =>
      obtain ⟨system, hsys, hs⟩ := Option.bind_eq_some_iff.mp hs
      obtain ⟨cache, hc, hs⟩ := Option.bind_eq_some_iff.mp hs
      cases hs
      exact .association (not_not.mp ha) hsys hc
  | cache action =>
    simp only [step] at hs
    split at hs
    · cases hs
    · next ha =>
      obtain ⟨callers, hstep, rfl⟩ := Option.map_eq_some_iff.mp hs
      exact .cache (not_not.mp ha) hstep
  | invoke entry => cases hs; exact .invoke
  | advance i outcome =>
    simp only [step] at hs
    split at hs
    · cases hs
    · next c hc => exact stepScanCall_effect hc hs
  | expire k =>
    obtain ⟨o, ho, hs⟩ := withScanState_eq_some hs
    obtain ⟨work, hw, rfl⟩ := Option.map_eq_some_iff.mp hs
    exact .expire ho hw
  | startWork k =>
    obtain ⟨o, ho, hs⟩ := withScanState_eq_some hs
    obtain ⟨work, hw, rfl⟩ := Option.map_eq_some_iff.mp hs
    exact .startWork ho hw
  | advanceWork k outcome =>
    obtain ⟨o, ho, hs⟩ := withScanState_eq_some hs
    split at hs
    · cases hs
    · next pc hw => exact stepScanWork_effect ho hw hs
  | startCleanup =>
    obtain ⟨w, hw, rfl⟩ := Option.map_eq_some_iff.mp hs
    exact .startCleanup hw
  | advanceCleanup =>
    simp only [step] at hs
    split at hs
    · cases hs
    · next pc hw => exact stepScanCleanup_effect hw hs

/-! ## The system of associations in a run -/

/-- The step that the system of associations takes in a step of the machine, if it takes one. -/
def systemAction (m : Machine) : Event → Option Action
  | .association action => some action
  | .advance i _ =>
    match m.scanCalls[i]? with
    | some (.scanClaim _) => some .scanBegin
    | _ => none
  | .advanceCleanup =>
    match m.scanCleanupWork.running with
    | some (.last _) => some .scanEnd
    | _ => none
  | _ => none

/-- The transition of the system of associations behind one of the machine. -/
def systemTransition (t : Transition) : Option U80211.Transition :=
  (t.before.systemAction t.action).map fun action => ⟨t.before.system, action, t.after.system⟩

theorem step_system (hs : step event m = some m') :
    match m.systemAction event with
    | none => m'.system = m.system
    | some action => U80211.step action m.system = some m'.system := by
  cases step_effect hs with
  | association ha hsys hc => exact hsys
  | quiet hc hq =>
    simp only [systemAction, hc]
    cases hq <;> rfl
  | claim hc hst =>
    simp only [systemAction, hc]
    rw [U80211.step, setDeviceState, if_pos hst]
    rfl
  | busy hc ho hst =>
    simp only [systemAction, hc]
    rw [U80211.step, setDeviceState, if_neg hst]
    rfl
  | allocate hc | publish hc | purge hc | listenCall hc | wait hc | response hc =>
    simp only [systemAction, hc]
    rfl
  | destroy hw ho hd =>
    simp only [systemAction, hw]
    cases hd <;> rfl
  | last hw hsys =>
    simp only [systemAction, hw]
    exact hsys
  | _ => rfl

/-- **A run of the machine is a run of the system of associations.** -/
theorem Run.system {τ : List Transition} (h : Run own τ m) :
    U80211.Run own (τ.filterMap systemTransition) m.system := by
  refine h.history (P := fun τ m => U80211.Run own (τ.filterMap systemTransition) m.system) .nil ?_
  intro τ m event m' _ ih hs
  have hsys := step_system hs
  rw [Lts.filterMap_concat, systemTransition]
  split at hsys
  · next hn =>
    rw [hn, hsys]
    simpa using ih
  · next action hn =>
    rw [hn]
    exact ih.snoc hsys

theorem Reachable.system (h : Reachable own m) : U80211.Reachable own m.system := by
  obtain ⟨τ, hτ⟩ := h
  exact (Run.system hτ).reachable

/-! ## A run -/

namespace Scenario

/-- Call `i` of a scan takes `n` steps. -/
def advance (i n : Nat) : List Event := List.replicate n (.advance i {})

/-- `scan_work` of scan state `k` takes `n` steps. -/
def work (k n : Nat) : List Event := List.replicate n (.advanceWork k {})

/-- A caller has an access point. -/
def allocate (ap : AccessPoint) : List Event :=
  [.cache (.allocate ap { left := none, right := none, parent := none, colour := .red })]

/-- The actions of the system of associations. -/
def associations (actions : List Action) : List Event := actions.map .association

def run (events : List Event) : Option Machine :=
  Lts.exec step events (.registered U80211.Scenario.device)

/-- The transitions of the run. -/
def trace (events : List Event) : List Transition :=
  Lts.trace step events (.registered U80211.Scenario.device)

theorem run_trace {events : List Event} (h : run events = some m) :
    Run U80211.Scenario.device (trace events) m :=
  Lts.exec_run h

/-- An execution that gives an observation gives the state it is made in. -/
theorem exists_of_run {α : Type} {f : Machine → α} {x : α} {events : List Event}
    (h : (run events).map f = some x) : ∃ m, run events = some m ∧ f m = x :=
  Option.map_eq_some_iff.mp h

end Scenario

end Machine

end U80211
