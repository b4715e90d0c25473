import U80211.Properties.Sections

/-!
# What one step of the system can do

`Effect s action s'` lists the steps of the system from a state with consistent fields, one
constructor for each line of the source that matters to another thread; steps that only move a
call on share the constructor `quiet`. The invariants of the other files are proved by cases on
it.

* `step_effect`: every step is one of them
-/

namespace U80211

open WorkQueue

/-! ## Positions -/

/-- The access point that a call releases next. -/
def Call.held : Call → Option AccessPoint
  | .associateRelease _ _ disconnected => disconnected
  | .deauthenticateRelease disconnected _ => some disconnected
  | _ => none

/-- The context that a call to `u80211_associate` goes on to use. -/
def Call.attempt : Call → Option AssociationContext
  | .associateSetChannel context | .associateSend context | .associateArm context => some context
  | _ => none

/-- A step of a call that changes nothing but its position. -/
inductive Quiet : Call → Call → Prop
  | notEnoughSpace {ap ies} : Quiet (.associateEnter ap ies) (.returned .notEnoughSpace)
  | allocated {ap ies} : Quiet (.associateAllocate ap ies) (.associateCritical ap ies)
  | enomem {ap ies} : Quiet (.associateAllocate ap ies) (.returned .enomem)
  | busy {ap ies} : Quiet (.associateCritical ap ies) (.returned .busy)
  | setChannel {context} : Quiet (.associateSetChannel context) (.associateSend context)
  | sent {context} : Quiet (.associateSend context) (.associateArm context)
  | notAssociated {reason} : Quiet (.deauthenticateFirst reason) (.returned .notAssociated)
  | deauthenticationSent {reason address status} :
      Quiet (.deauthenticateSend reason address) (.deauthenticateSecond status)
  | deauthenticated {status} : Quiet (.deauthenticateSecond status) (.returned status)
  | waitAllocated : Quiet .waitAllocate .waitCritical
  | retry : Quiet .waitAllocate (.returned .retry)

/-- A quiet step neither gets nor gives back a reference. -/
theorem Quiet.held {c c' : Call} (h : Quiet c c') : c.held = none ∧ c'.held = none := by
  cases h <;> exact ⟨rfl, rfl⟩

/-- A quiet step stays with its attempt. -/
theorem Quiet.attempt {c c' : Call} (h : Quiet c c') : c'.attempt = c.attempt := by
  cases h <;> rfl

/-- The context that a position of `cleanup_association` works on. -/
def CleanupPc.context : CleanupPc → Option AssociationContext
  | .first => none
  | .releaseAp context _ | .freeAuthTimer context _ | .freeAssocTimer context _
  | .freeCompletionWork context _ | .freeAuthTimeoutWork context _
  | .freeAssocTimeoutWork context _ | .freeContext context _ | .second context => some context
  | .releaseDisconnected context _ => context

/-- The access point in `disconnected_ap` that is still to be released. -/
def CleanupPc.disconnected : CleanupPc → Option AccessPoint
  | .first | .second _ => none
  | .releaseAp _ disconnected | .freeAuthTimer _ disconnected | .freeAssocTimer _ disconnected
  | .freeCompletionWork _ disconnected | .freeAuthTimeoutWork _ disconnected
  | .freeAssocTimeoutWork _ disconnected | .freeContext _ disconnected
  | .releaseDisconnected _ disconnected => disconnected

/-- The line of `destroy_association_context` at `pc`, with the position after it and the
objects of the context before and after. -/
inductive Destroys (context : AssociationContext) (disconnected : Option AccessPoint) :
    CleanupPc → CleanupPc → ContextObjects → ContextObjects → Prop
  | authTimer {o} : Destroys context disconnected (.freeAuthTimer context disconnected)
      (.freeAssocTimer context disconnected) o
      (o.updateTimeout .auth (o.timeoutWork .auth).freeTimer)
  | assocTimer {o} : Destroys context disconnected (.freeAssocTimer context disconnected)
      (.freeCompletionWork context disconnected) o
      (o.updateTimeout .assoc (o.timeoutWork .assoc).freeTimer)
  | completionWork {o} (hr : o.completionWork.running = none) :
      Destroys context disconnected (.freeCompletionWork context disconnected)
        (.freeAuthTimeoutWork context disconnected) o
        (o.updateCompletion { request := .idle, running := none, freed := true })
  | authTimeoutWork {o w} (h : (o.timeoutWork .auth).freeWork = some w) :
      Destroys context disconnected (.freeAuthTimeoutWork context disconnected)
        (.freeAssocTimeoutWork context disconnected) o (o.updateTimeout .auth w)
  | assocTimeoutWork {o w} (h : (o.timeoutWork .assoc).freeWork = some w) :
      Destroys context disconnected (.freeAssocTimeoutWork context disconnected)
        (.freeContext context disconnected) o (o.updateTimeout .assoc w)
  | context {o} : Destroys context disconnected (.freeContext context disconnected)
      (.releaseDisconnected (some context) disconnected) o { o with freed := true }

/-! ## Steps -/

/-- **What one step of the system can do.** -/
inductive Effect (s : System) : Action → System → Prop
  | invoke {entry : Entry} :
      Effect s (.invoke entry) { s with calls := s.calls ++ [entry.start] }
  | quiet {i : Nat} {o : Outcome} {c c' : Call} (hc : s.calls[i]? = some c) (hq : Quiet c c') :
      Effect s (.advance i o) (s.setCall i c')
  | takeDisconnected {i : Nat} {o : Outcome} {ap : AccessPoint} {ies : List UInt8}
      (hc : s.calls[i]? = some (.associateEnter ap ies)) :
      Effect s (.advance i o)
        ({ s with association := { s.association with disconnectedAp := none } }.setCall i
          (.associateRelease ap ies s.association.disconnectedAp))
  | releaseTaken {i : Nat} {o : Outcome} {ap : AccessPoint} {ies : List UInt8}
      {disconnected : Option AccessPoint}
      (hc : s.calls[i]? = some (.associateRelease ap ies disconnected)) :
      Effect s (.advance i o) ((s.release disconnected).setCall i (.associateAllocate ap ies))
  | install {i : Nat} {o : Outcome} {ies : List UInt8} {context : AssociationContext}
      (hc : s.calls[i]? = some (.associateCritical context.ap ies))
      (hp : s.association.associationCleanupPending = false) (hs : s.association.state = .down)
      (hid : context.id = s.nextContext)
      (hg : context.generation = s.association.associationGeneration) :
      Effect s (.advance i o)
        ((({ s with
              association := s.association.install context
              nextContext := s.nextContext + 1 }.hold (some context.ap)
          ).setObjects context.id (.allocate context)).setCall i (.associateSetChannel context))
  | arm {i : Nat} {o : Outcome} {context : AssociationContext} {ob : ContextObjects}
      (hc : s.calls[i]? = some (.associateArm context)) (ho : s.objects context.id = some ob) :
      Effect s (.advance i o)
        ((s.setObjects context.id (ob.updateTimeout .auth (ob.timeoutWork .auth).enqueue)
          ).setCall i (.returned .success))
  | deauthenticateFirst {i : Nat} {o : Outcome} {reason : UInt16} {address : MacAddress}
      (hc : s.calls[i]? = some (.deauthenticateFirst reason))
      (hs : s.association.state = .associated) :
      Effect s (.advance i o)
        ({ s with association := { s.association with state := .deauthenticating } }.setCall i
          (.deauthenticateSend reason address))
  | deauthenticateSecond {i : Nat} {o : Outcome} {status : Status} {ap : AccessPoint}
      (hc : s.calls[i]? = some (.deauthenticateSecond status))
      (hs : s.association.state = .deauthenticating) (ha : s.association.ap = some ap) :
      Effect s (.advance i o)
        ({ s with association := s.association.leave }.setCall i
          (.deauthenticateRelease ap status))
  | deauthenticateRelease {i : Nat} {o : Outcome} {ap : AccessPoint} {status : Status}
      (hc : s.calls[i]? = some (.deauthenticateRelease ap status)) :
      Effect s (.advance i o) ((s.release (some ap)).setCall i (.returned status))
  | answer {i : Nat} {o : Outcome} (hc : s.calls[i]? = some .waitCritical)
      (hs : s.association.state.inProgress = false)
      (hp : s.association.associationCleanupPending = false) :
      Effect s (.advance i o) (s.setCall i (.returned s.association.associationResult))
  | wait {i : Nat} {o : Outcome} (hc : s.calls[i]? = some .waitCritical)
      (hs : s.association.state.inProgress = true ∨
        s.association.associationCleanupPending = true) :
      Effect s (.advance i o)
        ({ s with association := { s.association with
            associationWaiters := s.association.associationWaiters ++ [i] } }.setCall i
          (.waiting 0 .success))
  | woken {i : Nat} {o : Outcome} {semaphore : Nat} {result : Status}
      (hc : s.calls[i]? = some (.waiting semaphore result)) (hn : semaphore ≠ 0) :
      Effect s (.advance i o) (s.setCall i (.returned result))
  | receive {i : Nat} {o : Outcome} {frame : Frame} {plan : ManagementPlan}
      (hc : s.calls[i]? = some (.receive frame))
      (hp : processManagementPacket s.ownAddress frame.header frame.data = some plan) :
      Effect s (.advance i o) (s.setCall i (plan.next frame))
  | filter {i : Nat} {o : Outcome} {frame : Frame} {expectedState : DeviceState}
      {message : Option Message} {control : UInt16} {valid : Bool} {next : Call}
      (hc : s.calls[i]? = some (.filter frame expectedState message))
      (hn : next = .handled ∨ ∃ m, message = some m ∧ next = .process frame m ∧
        (associationIsDuplicate s.association frame.header expectedState).1 = false) :
      Effect s (.advance i o)
        ({ s with association := { s.association with
            receivedSequenceControl := control
            receivedSequenceControlValid := valid } }.setCall i next)
  | process {i : Nat} {o : Outcome} {frame : Frame} {message : Message} {r : SectionResult}
      (hc : s.calls[i]? = some (.process frame message))
      (hr : SectionStep s.association (.message message) r) :
      Effect s (.advance i o)
        ((s.applySection r).setCall i (if r.cleanupNeeded then .enqueueCleanup else .handled))
  | enqueueCleanup {i : Nat} {o : Outcome} (hc : s.calls[i]? = some .enqueueCleanup) :
      Effect s (.advance i o)
        ({ s with cleanupWork := s.cleanupWork.enqueue }.setCall i .handled)
  | expire {k : Nat} {kind : TimeoutKind} {ob : ContextObjects} {w : DelayedWork TimeoutPc}
      (ho : s.objects k = some ob) (hw : (ob.timeoutWork kind).expire = some w) :
      Effect s (.expire k kind) (s.setObjects k (ob.updateTimeout kind w))
  | startTimeout {k : Nat} {kind : TimeoutKind} {ob : ContextObjects} {w : DelayedWork TimeoutPc}
      (ho : s.objects k = some ob) (hw : (ob.timeoutWork kind).start .critical = some w) :
      Effect s (.startTimeout k kind) (s.setObjects k (ob.updateTimeout kind w))
  | timeout {k : Nat} {kind : TimeoutKind} {ob : ContextObjects} {r : SectionResult}
      (ho : s.objects k = some ob)
      (hw : (ob.timeoutWork kind).work.running = some .critical)
      (hr : SectionStep s.association (.timeout ob.context kind) r) :
      Effect s (.advanceTimeout k kind)
        ((s.applySection r).setObjects k (ob.updateTimeout kind ((ob.timeoutWork kind).goto
          (if r.cleanupNeeded then some .enqueueCleanup else none))))
  | timeoutEnqueue {k : Nat} {kind : TimeoutKind} {ob : ContextObjects}
      (ho : s.objects k = some ob)
      (hw : (ob.timeoutWork kind).work.running = some .enqueueCleanup) :
      Effect s (.advanceTimeout k kind)
        ({ s with cleanupWork := s.cleanupWork.enqueue }.setObjects k
          (ob.updateTimeout kind ((ob.timeoutWork kind).goto none)))
  | startCompletion {k : Nat} {ob : ContextObjects} {w : Work CompletionPc}
      (ho : s.objects k = some ob)
      (hw : ob.completionWork.start .sendAssociationRequest = some w) :
      Effect s (.startCompletion k) (s.setObjects k (ob.updateCompletion w))
  | sendAssociationRequest {k : Nat} {ob : ContextObjects} (ho : s.objects k = some ob)
      (hw : ob.completionWork.running = some .sendAssociationRequest) :
      Effect s (.advanceCompletion k)
        (s.setObjects k (ob.updateCompletion (ob.completionWork.goto (some .enqueueTimeout))))
  | enqueueTimeout {k : Nat} {ob : ContextObjects} (ho : s.objects k = some ob)
      (hw : ob.completionWork.running = some .enqueueTimeout) :
      Effect s (.advanceCompletion k)
        (s.setObjects k ((ob.updateCompletion (ob.completionWork.goto none)).updateTimeout .assoc
          (ob.timeoutWork .assoc).enqueue))
  | startCleanup {w : Work CleanupPc} (hw : s.cleanupWork.start .first = some w) :
      Effect s .startCleanup { s with cleanupWork := w }
  | cleanupFirst (hw : s.cleanupWork.running = some .first) :
      Effect s .advanceCleanup
        { s with
          association := { s.association with disconnectedAp := none }
          cleanupWork := s.cleanupWork.goto (some
            (match s.association.associationCleanupContext with
            | none => .releaseDisconnected none s.association.disconnectedAp
            | some context => .releaseAp context s.association.disconnectedAp)) }
  | cleanupRelease {context : AssociationContext} {disconnected : Option AccessPoint}
      (hw : s.cleanupWork.running = some (.releaseAp context disconnected)) :
      Effect s .advanceCleanup
        { s.release (some context.ap) with
          cleanupWork := s.cleanupWork.goto (some (.freeAuthTimer context disconnected)) }
  | cleanupDestroy {context : AssociationContext} {disconnected : Option AccessPoint}
      {pc next : CleanupPc} {ob ob' : ContextObjects} (hw : s.cleanupWork.running = some pc)
      (ho : s.objects context.id = some ob)
      (hd : Destroys context disconnected pc next ob ob') :
      Effect s .advanceCleanup
        ({ s with cleanupWork := s.cleanupWork.goto (some next) }.setObjects context.id ob')
  | cleanupReleaseDisconnected {context : Option AssociationContext}
      {disconnected : Option AccessPoint}
      (hw : s.cleanupWork.running = some (.releaseDisconnected context disconnected)) :
      Effect s .advanceCleanup
        { s.release disconnected with
          cleanupWork := s.cleanupWork.goto (context.map .second) }
  | cleanupSecond {context : AssociationContext}
      (hw : s.cleanupWork.running = some (.second context)) :
      Effect s .advanceCleanup
        { s with
          association := (cleanupAssociationSecond s.association).2.2
          calls := System.wakeAssociationWaiters s.calls s.association.associationWaiters
            s.association.associationResult
          cleanupWork := s.cleanupWork.goto none }
  | scanBegin (hs : s.association.state = .down) :
      Effect s .scanBegin { s with association := { s.association with state := .scanning } }
  | scanEnd (hs : s.association.state = .scanning) :
      Effect s .scanEnd { s with association := { s.association with state := .down } }
  | scanBusy {action : Action} (ha : action = .scanBegin ∨ action = .scanEnd) : Effect s action s

variable {s s' : System}

section ApplySection

variable (s : System) (r : SectionResult)

@[simp] theorem applySection_ownAddress : (s.applySection r).ownAddress = s.ownAddress := by
  unfold System.applySection; cases r.completion <;> rfl

/-- A section leaves its result in the association fields. -/
@[simp] theorem applySection_association : (s.applySection r).association = r.association := by
  unfold System.applySection; cases r.completion <;> rfl

@[simp] theorem applySection_nextContext : (s.applySection r).nextContext = s.nextContext := by
  unfold System.applySection; cases r.completion <;> rfl

/-- A section moves no call. -/
@[simp] theorem applySection_calls : (s.applySection r).calls = s.calls := by
  unfold System.applySection; cases r.completion <;> rfl

@[simp] theorem applySection_cleanupWork : (s.applySection r).cleanupWork = s.cleanupWork := by
  unfold System.applySection; cases r.completion <;> rfl

@[simp] theorem applySection_references :
    (s.applySection r).references = (s.hold r.held).references := by
  unfold System.applySection; cases r.completion <;> rfl

end ApplySection

/-- A step on the objects of a context finds them. -/
theorem stepObjects_eq_some {k : Nat} {f : ContextObjects → Option System}
    (h : stepObjects s k f = some s') : ∃ o, s.objects k = some o ∧ f o = some s' := by
  unfold stepObjects at h
  split at h
  · cases h
  · next o ho => exact ⟨o, ho, h⟩

/-- A line of `destroy_association_context` frees one part and goes on. -/
theorem stepDestroy_eq_some {context : AssociationContext} {next : CleanupPc}
    {free : ContextObjects → Option ContextObjects}
    (h : stepDestroy s context next free = some s') :
    ∃ o o', s.objects context.id = some o ∧ free o = some o' ∧
      s' = { s with cleanupWork := s.cleanupWork.goto (some next) }.setObjects context.id o' := by
  obtain ⟨o, ho, h⟩ := stepObjects_eq_some h
  obtain ⟨o', ho', rfl⟩ := Option.map_eq_some_iff.mp h
  exact ⟨o, o', ho, ho', rfl⟩

/-- The steps of a call. -/
theorem stepCall_effect (h : s.association.Consistent) {i : Nat} {o : Outcome} {c : Call}
    (hc : s.calls[i]? = some c) (hs : stepCall s i o c = some s') :
    Effect s (.advance i o) s' := by
  cases c with
  | associateEnter ap ies =>
    simp only [stepCall] at hs
    split at hs
    · cases hs; exact .quiet hc .notEnoughSpace
    · cases hs; exact .takeDisconnected hc
  | associateRelease ap ies disconnected => cases hs; exact .releaseTaken hc
  | associateAllocate ap ies =>
    simp only [stepCall] at hs
    split at hs
    · cases hs; exact .quiet hc .allocated
    · cases hs; exact .quiet hc .enomem
  | associateCritical ap ies =>
    simp only [stepCall] at hs
    split at hs
    · cases hs; exact .quiet hc .busy
    · next context a' ha =>
      obtain ⟨hp, hst, hid, rfl, hg, rfl⟩ := associate_eq_some ha
      cases hs
      exact .install hc hp hst hid hg
  | associateSetChannel context => cases hs; exact .quiet hc .setChannel
  | associateSend context => cases hs; exact .quiet hc .sent
  | associateArm context =>
    obtain ⟨ob, ho, hs⟩ := stepObjects_eq_some hs
    cases hs
    exact .arm hc ho
  | deauthenticateFirst reason =>
    simp only [stepCall] at hs
    split at hs
    · cases hs; exact .quiet hc .notAssociated
    · next address a' ha =>
      obtain ⟨hst, rfl⟩ := deauthenticateFirst_eq_some ha
      cases hs
      exact .deauthenticateFirst hc hst
  | deauthenticateSend reason address => cases hs; exact .quiet hc .deauthenticationSent
  | deauthenticateSecond status =>
    simp only [stepCall] at hs
    rcases deauthenticateSecond_cases s.association with ⟨ap, ha, hst, he⟩ | ⟨-, he⟩
    · rw [he] at hs
      cases hs
      exact .deauthenticateSecond hc hst ha
    · rw [he] at hs
      cases hs
      exact .quiet hc .deauthenticated
  | deauthenticateRelease disconnected status => cases hs; exact .deauthenticateRelease hc
  | waitAllocate =>
    simp only [stepCall] at hs
    split at hs
    · cases hs; exact .quiet hc .waitAllocated
    · cases hs; exact .quiet hc .retry
  | waitCritical =>
    simp only [stepCall] at hs
    rcases waitForAssociationCompletion_cases s.association i with ⟨hst, hp, he⟩ | ⟨hst, he⟩
    · rw [he] at hs
      cases hs
      exact .answer hc hst hp
    · rw [he] at hs
      cases hs
      exact .wait hc hst
  | waiting semaphore result =>
    simp only [stepCall] at hs
    split at hs
    · cases hs
    · next hn => cases hs; exact .woken hc hn
  | receive frame =>
    simp only [stepCall] at hs
    split at hs
    · cases hs
    · next plan hp => cases hs; exact .receive hc hp
  | filter frame expectedState message =>
    simp only [stepCall] at hs
    -- the filter changes its own fields whether or not the frame passes
    obtain ⟨control, valid, he⟩ :=
      associationIsDuplicate_cases s.association frame.header expectedState
    rw [he] at hs
    cases hs
    refine .filter hc ?_
    cases message with
    | none => exact Or.inl rfl
    | some m =>
      cases hd : (associationIsDuplicate s.association frame.header expectedState).1 with
      | true => exact Or.inl rfl
      | false => exact Or.inr ⟨m, rfl, rfl, rfl⟩
  | process frame message =>
    cases hs
    exact .process hc (associationProcess_step h message)
  | enqueueCleanup => cases hs; exact .enqueueCleanup hc
  | returned status => cases hs
  | handled => cases hs

/-- The steps of `cleanup_association`. -/
theorem stepCleanup_effect {pc : CleanupPc} (hw : s.cleanupWork.running = some pc)
    (hs : stepCleanup s pc = some s') : Effect s .advanceCleanup s' := by
  cases pc with
  | first =>
    cases hs
    have he := Effect.cleanupFirst hw
    cases hcc : s.association.associationCleanupContext <;>
      simpa only [cleanupAssociationFirst, hcc] using he
  | releaseAp context disconnected => cases hs; exact .cleanupRelease hw
  | freeAuthTimer context disconnected =>
    obtain ⟨ob, ob', ho, hf, rfl⟩ := stepDestroy_eq_some hs
    cases hf
    exact .cleanupDestroy hw ho .authTimer
  | freeAssocTimer context disconnected =>
    obtain ⟨ob, ob', ho, hf, rfl⟩ := stepDestroy_eq_some hs
    cases hf
    exact .cleanupDestroy hw ho .assocTimer
  | freeCompletionWork context disconnected =>
    obtain ⟨ob, ob', ho, hf, rfl⟩ := stepDestroy_eq_some hs
    obtain ⟨w, hfree, rfl⟩ := Option.map_eq_some_iff.mp hf
    obtain ⟨hr, rfl⟩ := Work.free_eq_some hfree
    exact .cleanupDestroy hw ho (.completionWork hr)
  | freeAuthTimeoutWork context disconnected =>
    obtain ⟨ob, ob', ho, hf, rfl⟩ := stepDestroy_eq_some hs
    obtain ⟨w, hfree, rfl⟩ := Option.map_eq_some_iff.mp hf
    exact .cleanupDestroy hw ho (.authTimeoutWork hfree)
  | freeAssocTimeoutWork context disconnected =>
    obtain ⟨ob, ob', ho, hf, rfl⟩ := stepDestroy_eq_some hs
    obtain ⟨w, hfree, rfl⟩ := Option.map_eq_some_iff.mp hf
    exact .cleanupDestroy hw ho (.assocTimeoutWork hfree)
  | freeContext context disconnected =>
    obtain ⟨ob, ob', ho, hf, rfl⟩ := stepDestroy_eq_some hs
    cases hf
    exact .cleanupDestroy hw ho .context
  | releaseDisconnected context disconnected => cases hs; exact .cleanupReleaseDisconnected hw
  | second context => cases hs; exact .cleanupSecond hw

/-- **Every step from a state with consistent fields is one of the listed ones.** -/
theorem step_effect (h : s.association.Consistent) {action : Action}
    (hs : step action s = some s') : Effect s action s' := by
  cases action with
  | invoke entry => cases hs; exact .invoke
  | advance i o =>
    simp only [step] at hs
    split at hs
    · cases hs
    · next c hc => exact stepCall_effect h hc hs
  | expire k kind =>
    obtain ⟨ob, ho, hs⟩ := stepObjects_eq_some hs
    obtain ⟨w, hw, rfl⟩ := Option.map_eq_some_iff.mp hs
    exact .expire ho hw
  | startTimeout k kind =>
    obtain ⟨ob, ho, hs⟩ := stepObjects_eq_some hs
    obtain ⟨w, hw, rfl⟩ := Option.map_eq_some_iff.mp hs
    exact .startTimeout ho hw
  | advanceTimeout k kind =>
    obtain ⟨ob, ho, hs⟩ := stepObjects_eq_some hs
    obtain ⟨pc, hw, rfl⟩ := Option.map_eq_some_iff.mp hs
    cases pc with
    | critical => exact .timeout ho hw (associationTimeout_step h ob.context kind)
    | enqueueCleanup => exact .timeoutEnqueue ho hw
  | startCompletion k =>
    obtain ⟨ob, ho, hs⟩ := stepObjects_eq_some hs
    obtain ⟨w, hw, rfl⟩ := Option.map_eq_some_iff.mp hs
    exact .startCompletion ho hw
  | advanceCompletion k =>
    obtain ⟨ob, ho, hs⟩ := stepObjects_eq_some hs
    obtain ⟨pc, hw, rfl⟩ := Option.map_eq_some_iff.mp hs
    cases pc with
    | sendAssociationRequest => exact .sendAssociationRequest ho hw
    | enqueueTimeout => exact .enqueueTimeout ho hw
  | startCleanup =>
    obtain ⟨w, hw, rfl⟩ := Option.map_eq_some_iff.mp hs
    exact .startCleanup hw
  | advanceCleanup =>
    simp only [step] at hs
    split at hs
    · cases hs
    · next pc hw => exact stepCleanup_effect hw hs
  | scanBegin =>
    cases hs
    -- the swap fails when the device is not down
    by_cases hst : s.association.state = .down
    · rw [setDeviceState, if_pos hst]
      exact .scanBegin hst
    · rw [setDeviceState, if_neg hst]
      exact .scanBusy (Or.inl rfl)
  | scanEnd =>
    cases hs
    -- the swap fails when the device is not scanning
    by_cases hst : s.association.state = .scanning
    · rw [setDeviceState, if_pos hst]
      exact .scanEnd hst
    · rw [setDeviceState, if_neg hst]
      exact .scanBusy (Or.inr rfl)

end U80211
