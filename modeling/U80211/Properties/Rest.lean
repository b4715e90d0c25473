import U80211.Lib.Termination
import U80211.Properties.Waiters

/-!
# The association machine comes to rest

Once nobody makes another call and no frame comes, what has been begun goes on by itself: the calls
take their steps, the timers expire and the work callbacks run. Each of these steps makes the weight
of the state smaller, whichever order they are taken in.

* `Effect.weight_lt`: the weight of the state gets smaller
* `Reachable.gone`: a context is the current one, waits for its cleanup, or has been freed entirely
* `Reachable.disconnectedDue`, `Reachable.deauthenticating`: what has to come is on its way
* `atRest_of_halted`: when nothing can go on, everything is done
-/

namespace U80211

open WorkQueue

variable {s s' : System} {ownAddress : MacAddress}

/-- What the device does by itself; a call from outside and the swaps of a scan are not. -/
def Action.Internal : Action → Prop
  | .invoke _ | .scanBegin | .scanEnd => False
  | _ => True

/-! ## Weights

A position weighs more than the positions that it leads to, and than what it queues on the way.
-/

def CleanupPc.weight : CleanupPc → Nat
  | .first => 10
  | .releaseAp _ _ => 9
  | .freeAuthTimer _ _ => 8
  | .freeAssocTimer _ _ => 7
  | .freeCompletionWork _ _ => 6
  | .freeAuthTimeoutWork _ _ => 5
  | .freeAssocTimeoutWork _ _ => 4
  | .freeContext _ _ => 3
  | .releaseDisconnected _ _ => 2
  | .second _ => 1

def TimeoutPc.weight : TimeoutPc → Nat
  | .critical => 13
  | .enqueueCleanup => 12

def CompletionPc.weight : CompletionPc → Nat
  | .sendAssociationRequest => 17
  | .enqueueTimeout => 16

/-- `response` is the weight of a probe response that a received frame hands on to a scan. -/
def Call.weight (response : Nat) : Call → Nat
  | .associateEnter _ _ => 22
  | .associateRelease _ _ _ => 21
  | .associateAllocate _ _ => 20
  | .associateCritical _ _ => 19
  | .associateSetChannel _ => 18
  | .associateSend _ => 17
  | .associateArm _ => 16
  | .deauthenticateFirst _ => 4
  | .deauthenticateSend _ _ => 3
  | .deauthenticateSecond _ => 2
  | .deauthenticateRelease _ _ => 1
  | .waitAllocate => 3
  | .waitCritical => 2
  | .waiting _ _ => 1
  | .receive _ => 33 + response
  | .filter _ _ _ => 32
  | .process _ _ => 31
  | .enqueueCleanup => 12
  | .returned _ => 0
  | .handled => 0

def ContextObjects.weight (o : ContextObjects) : Nat :=
  o.completionWork.weight 18 CompletionPc.weight +
    (o.timeoutWork .auth).weight 14 TimeoutPc.weight +
    (o.timeoutWork .assoc).weight 14 TimeoutPc.weight

/-- The weight of a context that may not have been allocated. -/
def contextWeight (o : Option ContextObjects) : Nat := o.elim 0 ContextObjects.weight

def System.callWeight (response : Nat) (s : System) : Nat :=
  (s.calls.map (Call.weight response)).sum

def System.objectWeight (s : System) : Nat :=
  ∑ k ∈ Finset.range s.nextContext, contextWeight (s.objects k)

def System.weight (response : Nat) (s : System) : Nat :=
  s.callWeight response + s.objectWeight + s.cleanupWork.weight 11 CleanupPc.weight

variable {v : Nat}

/-- A quiet step of a call lowers its weight. -/
theorem Quiet.weight_lt {c c' : Call} (h : Quiet c c') :
    c'.weight v < c.weight v := by
  cases h <;> simp [Call.weight]

theorem ManagementPlan.weight_next_le (plan : ManagementPlan) (frame : Frame) :
    (plan.next frame).weight v ≤ 32 := by
  cases plan <;> simp [ManagementPlan.next, Call.weight]

/-- A line of the cleanup lowers the weight of its position. -/
theorem Destroys.weight_lt {c : AssociationContext} {d : Option AccessPoint} {pc next : CleanupPc}
    {o o' : ContextObjects} (h : Destroys c d pc next o o') : next.weight < pc.weight := by
  cases h <;> simp [CleanupPc.weight]

/-! ## The objects of a context -/

theorem ContextObjects.weight_updateCompletion {o : ContextObjects} {w : Work CompletionPc} :
    (o.updateCompletion w).weight + o.completionWork.weight 18 CompletionPc.weight =
      o.weight + w.weight 18 CompletionPc.weight := by
  simp only [ContextObjects.weight, updateCompletion_completionWork,
    updateCompletion_timeoutWork]
  omega

theorem ContextObjects.weight_updateTimeout {o : ContextObjects} (kind : TimeoutKind)
    {w : DelayedWork TimeoutPc} :
    (o.updateTimeout kind w).weight + (o.timeoutWork kind).weight 14 TimeoutPc.weight =
      o.weight + w.weight 14 TimeoutPc.weight := by
  cases kind <;> simp [ContextObjects.weight] <;> omega

/-- It adds nothing to that of the objects. -/
theorem Destroys.objects_weight_le {c : AssociationContext} {d : Option AccessPoint}
    {pc next : CleanupPc} {o o' : ContextObjects} (h : Destroys c d pc next o o') :
    o'.weight ≤ o.weight := by
  cases h with
  | authTimer =>
    have hw := o.weight_updateTimeout .auth (w := (o.timeoutWork .auth).freeTimer)
    have hle := (o.timeoutWork .auth).weight_freeTimer_le (q := 14) (f := TimeoutPc.weight)
    omega
  | assocTimer =>
    have hw := o.weight_updateTimeout .assoc (w := (o.timeoutWork .assoc).freeTimer)
    have hle := (o.timeoutWork .assoc).weight_freeTimer_le (q := 14) (f := TimeoutPc.weight)
    omega
  | completionWork =>
    have hw := o.weight_updateCompletion
      (w := { request := .idle, running := none, freed := true })
    have h0 : (Work.mk .idle none true : Work CompletionPc).weight 18 CompletionPc.weight = 0 := rfl
    omega
  | @authTimeoutWork _ w hf =>
    have hw := o.weight_updateTimeout .auth (w := w)
    have hle := DelayedWork.weight_freeWork_le (q := 14) (f := TimeoutPc.weight) hf
    omega
  | @assocTimeoutWork _ w hf =>
    have hw := o.weight_updateTimeout .assoc (w := w)
    have hle := DelayedWork.weight_freeWork_le (q := 14) (f := TimeoutPc.weight) hf
    omega
  | context => exact Nat.le_refl _

/-! ## Steps -/

/-- A call that goes on changes only its own part of the weight. -/
theorem weight_setCall {i : Nat} {c : Call} (hc : s.calls[i]? = some c) (c' : Call) :
    (s.setCall i c').weight v + c.weight v =
      s.weight v + c'.weight v := by
  have hcalls : (s.setCall i c').callWeight v + c.weight v =
      s.callWeight v + c'.weight v := Lts.sum_map_set hc
  have hrest : (s.setCall i c').objectWeight = s.objectWeight := rfl
  simp only [System.weight, System.setCall_cleanupWork, hrest]
  omega

/-- So do the objects of a context. -/
theorem objectWeight_setObjects {k : Nat} {o : ContextObjects} (hk : k < s.nextContext)
    (ho : s.objects k = some o) (o' : ContextObjects) :
    (s.setObjects k o').objectWeight + o.weight = s.objectWeight + o'.weight := by
  have hobjects : (s.setObjects k o').objectWeight + contextWeight (s.objects k) =
      s.objectWeight + contextWeight (some o') := Lts.sum_update hk (some o')
  rw [ho] at hobjects
  exact hobjects

theorem weight_setObjects {k : Nat} {o : ContextObjects} (hk : k < s.nextContext)
    (ho : s.objects k = some o) (o' : ContextObjects) :
    (s.setObjects k o').weight v + o.weight = s.weight v + o'.weight := by
  have hobjects := objectWeight_setObjects hk ho o'
  have hrest : (s.setObjects k o').callWeight v = s.callWeight v := rfl
  simp only [System.weight, System.setObjects_cleanupWork, hrest]
  omega

/-- A call takes a step that makes the rest of the state heavier by at most `n`. -/
theorem weight_setCall_lt {s₁ : System} {i n : Nat} {c c' : Call} (hc : s.calls[i]? = some c)
    (hcalls : s₁.calls = s.calls) (hw : s₁.weight v ≤ s.weight v + n)
    (h : c'.weight v + n < c.weight v) :
    (s₁.setCall i c').weight v < s.weight v := by
  rw [← hcalls] at hc
  have hset := weight_setCall (v := v) hc c'
  omega

/-- The objects of a context take a step that makes the rest of the state heavier by at most `n`. -/
theorem weight_setObjects_lt {t : System} {k n : Nat} {o o' : ContextObjects}
    (hk : k < t.nextContext) (ho : t.objects k = some o)
    (hw : t.weight v ≤ s.weight v + n) (h : o'.weight + n < o.weight) :
    (t.setObjects k o').weight v < s.weight v := by
  have hset := weight_setObjects (v := v) hk ho o'
  omega

/-- A request for the cleanup adds its own weight at most. -/
theorem weight_cleanupWork_le {w : Work CleanupPc} {n : Nat}
    (h : w.weight 11 CleanupPc.weight ≤ s.cleanupWork.weight 11 CleanupPc.weight + n) :
    ({ s with cleanupWork := w }).weight v ≤ s.weight v + n := by
  have hrest : ({ s with cleanupWork := w }).callWeight v = s.callWeight v := rfl
  have hrest' : ({ s with cleanupWork := w }).objectWeight = s.objectWeight := rfl
  simp only [System.weight, hrest, hrest']
  omega

/-- The cleanup goes on at a position that weighs less. -/
theorem weight_goto_lt {s₁ : System} {pc : CleanupPc} (hw : s.cleanupWork.running = some pc)
    {next : Option CleanupPc} (hcalls : s₁.callWeight v = s.callWeight v)
    (hobjects : s₁.objectWeight ≤ s.objectWeight)
    (hwork : s₁.cleanupWork = s.cleanupWork.goto next)
    (h : next.elim 0 CleanupPc.weight < pc.weight) :
    s₁.weight v < s.weight v := by
  have hgoto := Work.weight_goto (q := 11) (f := CleanupPc.weight) hw next
  simp only [System.weight, hwork]
  omega

/-- The section of a frame or a timeout queues at most the completion work. -/
theorem weight_applySection_le (hr : Reachable ownAddress s) {cause : Cause} {r : SectionResult}
    (hs : SectionStep s.association cause r) :
    (s.applySection r).weight v ≤ s.weight v + 18 := by
  cases hs with
  | @authenticated c hc hst ha =>
    obtain ⟨o, ho, -⟩ := hr.contexts.current c hc
    have hk := (hr.contexts.id _ _ ho).2
    have heq : (s.applySection (.authenticated s.association c)).weight v =
        (s.setObjects c.id (o.updateCompletion o.completionWork.enqueue)).weight v := by
      simp only [System.applySection, SectionResult.authenticated, System.enqueueCompletion,
        System.hold_objects, ho]
      rfl
    have hset := weight_setObjects (v := v) hk ho
      (o.updateCompletion o.completionWork.enqueue)
    have hupdate := o.weight_updateCompletion (w := o.completionWork.enqueue)
    have hle := o.completionWork.weight_enqueue_le (q := 18) (f := CompletionPc.weight)
    omega
  | _ => exact Nat.le_add_right _ _

/-- Who is woken stays as far from its end as before. -/
theorem weight_wake (result : Status) (waiters : List Nat) (calls : List Call) :
    ((System.wakeAssociationWaiters calls waiters result).map (Call.weight v)).sum =
      (calls.map (Call.weight v)).sum := by
  induction waiters generalizing calls with
  | nil => rfl
  | cons w ws ih =>
    refine (ih (System.signal result calls w)).trans ?_
    unfold System.signal
    split
    · next n r hw =>
      have hset := Lts.sum_map_set (w := Call.weight v) (c := .waiting (n + 1) result) hw
      simp only [Call.weight] at hset
      omega
    · rfl

/-- A new context has nothing to do yet. -/
theorem weight_install {c : AssociationContext} (hid : c.id = s.nextContext) (a : Association)
    (ap : Option AccessPoint) :
    (({ s with association := a, nextContext := s.nextContext + 1 }.hold ap).setObjects c.id
      (.allocate c)).weight v = s.weight v := by
  have hnew : contextWeight (some (.allocate c)) = 0 := rfl
  have hold : ∀ k ∈ Finset.range s.nextContext,
      contextWeight (Function.update s.objects c.id (some (.allocate c)) k) =
        contextWeight (s.objects k) := by
    intro k hk
    rw [Finset.mem_range] at hk
    rw [Function.update_of_ne (by omega)]
  have hsum : ∑ k ∈ Finset.range (s.nextContext + 1),
      contextWeight (Function.update s.objects c.id (some (.allocate c)) k) = s.objectWeight := by
    rw [Finset.sum_range_succ, Finset.sum_congr rfl hold, ← hid, Function.update_self, hnew, hid]
    rfl
  exact congrArg (s.callWeight v + · + s.cleanupWork.weight 11 CleanupPc.weight) hsum

/-- **Every step that the device takes by itself makes the weight smaller.** -/
theorem Effect.weight_lt (hr : Reachable ownAddress s) {action : Action} (he : Effect s action s')
    (ha : action.Internal) : s'.weight v < s.weight v := by
  have hid := hr.contexts.id
  cases he with
  | invoke => exact ha.elim
  | quiet hc hq => exact weight_setCall_lt hc rfl (n := 0) (Nat.le_refl _) hq.weight_lt
  | takeDisconnected hc | releaseTaken hc | deauthenticateFirst hc | deauthenticateSecond hc
  | deauthenticateRelease hc | answer hc | wait hc | woken hc =>
    exact weight_setCall_lt hc rfl (n := 0) (Nat.le_refl _) (by simp [Call.weight])
  | install hc hp hs hid hg =>
    exact weight_setCall_lt hc rfl (n := 0) (weight_install hid _ _).le (by simp [Call.weight])
  | @arm _ _ context ob hc ho =>
    have hset := weight_setObjects (v := v) (hid _ _ ho).2 ho
      (ob.updateTimeout .auth (ob.timeoutWork .auth).enqueue)
    have hupdate := ob.weight_updateTimeout .auth (w := (ob.timeoutWork .auth).enqueue)
    have hle := (ob.timeoutWork .auth).weight_enqueue_le (q := 14) (f := TimeoutPc.weight)
    exact weight_setCall_lt hc rfl (n := 15) (by omega) (by simp [Call.weight])
  | @receive _ _ frame plan hc hp =>
    have hle := plan.weight_next_le (v := v) frame
    have hpc : (Call.receive frame).weight v = 33 + v := rfl
    exact weight_setCall_lt hc rfl (n := 0) (Nat.le_refl _) (by omega)
  | filter hc hn =>
    refine weight_setCall_lt hc rfl (n := 0) (Nat.le_refl _) ?_
    rcases hn with rfl | ⟨m, -, rfl, -⟩ <;> simp [Call.weight]
  | process hc hr' =>
    refine weight_setCall_lt hc (by simp) (weight_applySection_le hr hr') ?_
    split <;> simp [Call.weight]
  | enqueueCleanup hc =>
    exact weight_setCall_lt hc rfl (weight_cleanupWork_le (Work.weight_enqueue_le _))
      (by simp [Call.weight])
  | @expire k kind ob w ho hw =>
    have hupdate := ob.weight_updateTimeout kind (w := w)
    have hexpire := DelayedWork.weight_expire (q := 14) (f := TimeoutPc.weight) hw
    exact weight_setObjects_lt (hid _ _ ho).2 ho (n := 0) (Nat.le_refl _) (by omega)
  | @startTimeout k kind ob w ho hw =>
    have hupdate := ob.weight_updateTimeout kind (w := w)
    have hstart := DelayedWork.weight_start (q := 14) (f := TimeoutPc.weight) hw
    simp only [TimeoutPc.weight] at hstart
    exact weight_setObjects_lt (hid _ _ ho).2 ho (n := 0) (Nat.le_refl _) (by omega)
  | @timeout k kind ob r ho hw hr' =>
    have hobjects := objects_applySection_timeout hr'
    have hle : (s.applySection r).weight v ≤ s.weight v + 0 := by
      cases hr' with
      | authenticated _ _ h => cases h
      | _ => exact Nat.le_refl _
    have hnext : (if r.cleanupNeeded then some TimeoutPc.enqueueCleanup else none).elim 0
        TimeoutPc.weight < TimeoutPc.critical.weight := by
      cases r.cleanupNeeded <;> simp [TimeoutPc.weight]
    have hupdate := ob.weight_updateTimeout kind (w := (ob.timeoutWork kind).goto
      (if r.cleanupNeeded then some .enqueueCleanup else none))
    have hgoto := DelayedWork.weight_goto (q := 14) (f := TimeoutPc.weight) hw
      (if r.cleanupNeeded then some .enqueueCleanup else none)
    exact weight_setObjects_lt (by simpa using (hid _ _ ho).2) (hobjects ▸ ho) hle (by omega)
  | @timeoutEnqueue k kind ob ho hw =>
    have hupdate := ob.weight_updateTimeout kind (w := (ob.timeoutWork kind).goto none)
    have hgoto := DelayedWork.weight_goto (q := 14) (f := TimeoutPc.weight) hw none
    simp only [Option.elim_none, TimeoutPc.weight] at hgoto
    exact weight_setObjects_lt (t := { s with cleanupWork := s.cleanupWork.enqueue })
      (hid _ _ ho).2 ho (weight_cleanupWork_le (Work.weight_enqueue_le _)) (by omega)
  | @startCompletion k ob w ho hw =>
    have hupdate := ob.weight_updateCompletion (w := w)
    have hstart := Work.weight_start (q := 18) (f := CompletionPc.weight) hw
    simp only [CompletionPc.weight] at hstart
    exact weight_setObjects_lt (hid _ _ ho).2 ho (n := 0) (Nat.le_refl _) (by omega)
  | @sendAssociationRequest k ob ho hw =>
    have hupdate := ob.weight_updateCompletion
      (w := ob.completionWork.goto (some .enqueueTimeout))
    have hgoto := Work.weight_goto (q := 18) (f := CompletionPc.weight) hw (some .enqueueTimeout)
    simp only [Option.elim_some, CompletionPc.weight] at hgoto
    exact weight_setObjects_lt (hid _ _ ho).2 ho (n := 0) (Nat.le_refl _) (by omega)
  | @enqueueTimeout k ob ho hw =>
    have hupdate := ob.weight_updateCompletion (w := ob.completionWork.goto none)
    have hgoto := Work.weight_goto (q := 18) (f := CompletionPc.weight) hw none
    simp only [Option.elim_none, CompletionPc.weight] at hgoto
    have harm := (ob.updateCompletion (ob.completionWork.goto none)).weight_updateTimeout
      .assoc (w := (ob.timeoutWork .assoc).enqueue)
    rw [ContextObjects.updateCompletion_timeoutWork] at harm
    have hle := (ob.timeoutWork .assoc).weight_enqueue_le (q := 14) (f := TimeoutPc.weight)
    exact weight_setObjects_lt (hid _ _ ho).2 ho (n := 0) (Nat.le_refl _) (by omega)
  | @startCleanup w hw =>
    have hstart := Work.weight_start (q := 11) (f := CleanupPc.weight) hw
    simp only [CleanupPc.weight] at hstart
    have hlt : w.weight 11 CleanupPc.weight < s.cleanupWork.weight 11 CleanupPc.weight := by omega
    exact Nat.add_lt_add_left hlt _
  | cleanupFirst hw =>
    refine weight_goto_lt hw rfl (Nat.le_refl _) rfl ?_
    cases s.association.associationCleanupContext <;> simp [CleanupPc.weight]
  | cleanupRelease hw =>
    exact weight_goto_lt hw rfl (Nat.le_refl _) rfl (by simp [CleanupPc.weight])
  | @cleanupDestroy c _ _ _ ob ob' hw ho hd =>
    have hset := objectWeight_setObjects (hid _ _ ho).2 ho ob'
    have hle := hd.objects_weight_le
    have hobjects : (s.setObjects c.id ob').objectWeight ≤ s.objectWeight := by omega
    exact weight_goto_lt hw rfl hobjects rfl hd.weight_lt
  | @cleanupReleaseDisconnected c _ hw =>
    refine weight_goto_lt hw rfl (Nat.le_refl _) rfl ?_
    cases c <;> simp [CleanupPc.weight]
  | cleanupSecond hw =>
    exact weight_goto_lt hw (weight_wake _ _ _) (Nat.le_refl _) rfl (by simp [CleanupPc.weight])
  | scanBegin => exact ha.elim
  | scanEnd => exact ha.elim
  | scanBusy hb => rcases hb with rfl | rfl <;> exact ha.elim

/-! ## What a context leaves behind -/

/-- A work object of a timeout that has been freed does nothing more. -/
def ContextObjects.Sound (o : ContextObjects) : Prop :=
  ∀ kind, (o.timeoutWork kind).work.Sound

theorem ContextObjects.Sound.updateTimeout {o : ContextObjects} (h : o.Sound) {kind : TimeoutKind}
    {w : DelayedWork TimeoutPc} (hw : w.work.Sound) : (o.updateTimeout kind w).Sound := by
  intro k
  rw [updateTimeout_timeoutWork, Function.update_apply]
  split
  · exact hw
  · exact h k

/-- Freeing a part leaves the other ones sound. -/
theorem Destroys.sound {c : AssociationContext} {d : Option AccessPoint} {pc next : CleanupPc}
    {o o' : ContextObjects} (h : Destroys c d pc next o o') (ho : o.Sound) : o'.Sound := by
  cases h with
  | authTimer => exact ho.updateTimeout (DelayedWork.sound_freeTimer (ho .auth))
  | assocTimer => exact ho.updateTimeout (DelayedWork.sound_freeTimer (ho .assoc))
  | authTimeoutWork hw => exact ho.updateTimeout (DelayedWork.sound_freeWork hw)
  | assocTimeoutWork hw => exact ho.updateTimeout (DelayedWork.sound_freeWork hw)
  | completionWork | context => exact ho

/-- The work objects of every context are sound. -/
theorem Reachable.sound (h : Reachable ownAddress s) :
    ∀ k o, s.objects k = some o → o.Sound := by
  refine Lts.Reachable.invariant (P := fun s => ∀ k o, s.objects k = some o → o.Sound)
    (fun _ _ ho => by cases ho) ?_ h
  intro s action s' hr ih hs k o' ho'
  have hreach : Reachable ownAddress s := hr
  rcases (hreach.effect hs).objects_cases ho' with ⟨c, -, -, rfl, -⟩ | ⟨o, ho, hstep⟩
  · exact fun kind => Work.sound_allocate
  have hsound := ih k o ho
  -- a callback that goes on has been started, so its object has not been freed
  have hgoto : ∀ {kind : TimeoutKind} {pc : TimeoutPc} (next : Option TimeoutPc),
      (o.timeoutWork kind).work.running = some pc →
        (o.updateTimeout kind ((o.timeoutWork kind).goto next)).Sound := by
    intro kind pc next hw
    exact hsound.updateTimeout ((hsound kind).goto (by rw [hw]; exact Option.some_ne_none _) next)
  cases hstep with
  | arm => exact hsound.updateTimeout (DelayedWork.sound_enqueue (hsound .auth))
  | expire hw => exact hsound.updateTimeout (DelayedWork.sound_expire (hsound _) hw)
  | startTimeout hw => exact hsound.updateTimeout (DelayedWork.sound_start hw)
  | timeout hw | timeoutEnqueue hw => exact hgoto _ hw
  | enqueueTimeout ha hw =>
    have hupdate : (o.updateCompletion (o.completionWork.goto none)).Sound := hsound
    exact hupdate.updateTimeout (DelayedWork.sound_enqueue (hsound .assoc))
  | destroy ha hid hw hd hr' => exact hd.sound hsound
  | same | authenticated | startCompletion | sendAssociationRequest => exact hsound

/-- Everything of the context has been freed. -/
structure ContextObjects.Gone (o : ContextObjects) : Prop where
  timer : ∀ kind, (o.timeoutWork kind).timerFreed = true
  timeoutWork : ∀ kind, (o.timeoutWork kind).work.freed = true
  completionWork : o.completionWork.freed = true
  freed : o.freed = true

/-- Everything has been freed that the lines before the position free. -/
def CleanupPc.Past (o : ContextObjects) : CleanupPc → Prop
  | .first | .releaseAp _ _ | .freeAuthTimer _ _ | .releaseDisconnected none _ => True
  | .freeAssocTimer _ _ => (o.timeoutWork .auth).timerFreed = true
  | .freeCompletionWork _ _ => ∀ kind, (o.timeoutWork kind).timerFreed = true
  | .freeAuthTimeoutWork _ _ =>
    (∀ kind, (o.timeoutWork kind).timerFreed = true) ∧ o.completionWork.freed = true
  | .freeAssocTimeoutWork _ _ =>
    (∀ kind, (o.timeoutWork kind).timerFreed = true) ∧ o.completionWork.freed = true ∧
      (o.timeoutWork .auth).work.freed = true
  | .freeContext _ _ =>
    (∀ kind, (o.timeoutWork kind).timerFreed = true) ∧ o.completionWork.freed = true ∧
      ∀ kind, (o.timeoutWork kind).work.freed = true
  | .releaseDisconnected (some _) _ | .second _ => o.Gone

/-- What is not freed by a step is as gone as before. -/
theorem SameLife.gone_iff {o o' : ContextObjects} (h : SameLife o o') : o'.Gone ↔ o.Gone := by
  constructor
  · exact fun hg => ⟨fun k => (h.timer k).symm.trans (hg.timer k),
      fun k => (h.timeoutWork k).symm.trans (hg.timeoutWork k),
      h.completionWork.symm.trans hg.completionWork, h.freed.symm.trans hg.freed⟩
  · exact fun hg => ⟨fun k => (h.timer k).trans (hg.timer k),
      fun k => (h.timeoutWork k).trans (hg.timeoutWork k),
      h.completionWork.trans hg.completionWork, h.freed.trans hg.freed⟩

/-- The cleanup has come as far as before. -/
theorem SameLife.past_iff {o o' : ContextObjects} (h : SameLife o o') (pc : CleanupPc) :
    pc.Past o' ↔ pc.Past o := by
  unfold CleanupPc.Past
  simp only [h.completionWork, h.timer, h.timeoutWork, h.gone_iff]

/-- Each line of `destroy_association_context` frees what is its own, and nothing comes back. -/
theorem Destroys.past {c : AssociationContext} {d : Option AccessPoint} {pc next : CleanupPc}
    {o o' : ContextObjects} (h : Destroys c d pc next o o') (hp : pc.Past o) : next.Past o' := by
  have hkind : ∀ {p : TimeoutKind → Prop}, p .auth → p .assoc → ∀ kind, p kind := by
    intro p ha hb kind
    cases kind
    · exact ha
    · exact hb
  cases h with
  | authTimer => simp [CleanupPc.Past, DelayedWork.freeTimer]
  | assocTimer =>
    simp only [CleanupPc.Past] at hp ⊢
    exact hkind (by simpa using hp) (by simp [DelayedWork.freeTimer])
  | completionWork hr =>
    simp only [CleanupPc.Past] at hp ⊢
    exact ⟨hp, rfl⟩
  | authTimeoutWork hw =>
    obtain ⟨ht, hc⟩ := hp
    obtain ⟨hf, htimer⟩ := DelayedWork.freed_of_freeWork hw
    exact ⟨hkind (by simp [htimer, ht]) (by simp [ht]), hc, by simp [hf]⟩
  | assocTimeoutWork hw =>
    obtain ⟨ht, hc, ha⟩ := hp
    obtain ⟨hf, htimer⟩ := DelayedWork.freed_of_freeWork hw
    exact ⟨hkind (by simp [ht]) (by simp [htimer, ht]), hc, hkind (by simp [ha]) (by simp [hf])⟩
  | context =>
    obtain ⟨ht, hc, hw⟩ := hp
    exact ⟨ht, hw, hc, rfl⟩

/-- What is gone stays gone. -/
theorem Destroys.gone {c : AssociationContext} {d : Option AccessPoint} {pc next : CleanupPc}
    {o o' : ContextObjects} (h : Destroys c d pc next o o') (hg : o.Gone) : o'.Gone := by
  obtain ⟨ht, hw, hc, hf⟩ := hg
  have hupdate : ∀ {kind : TimeoutKind} {w : DelayedWork TimeoutPc}, w.timerFreed = true →
      w.work.freed = true → (o.updateTimeout kind w).Gone := by
    intro kind w hwt hww
    refine ⟨fun k => ?_, fun k => ?_, hc, hf⟩
    · rw [ContextObjects.updateTimeout_timeoutWork, Function.update_apply]
      split
      · exact hwt
      · exact ht k
    · rw [ContextObjects.updateTimeout_timeoutWork, Function.update_apply]
      split
      · exact hww
      · exact hw k
  cases h with
  | authTimer => exact hupdate rfl (by rw [DelayedWork.freeTimer_freed, hw])
  | assocTimer => exact hupdate rfl (by rw [DelayedWork.freeTimer_freed, hw])
  | completionWork => exact ⟨ht, hw, rfl, hf⟩
  | authTimeoutWork hfree =>
    obtain ⟨hfw, hft⟩ := DelayedWork.freed_of_freeWork hfree
    exact hupdate (hft.trans (ht _)) hfw
  | assocTimeoutWork hfree =>
    obtain ⟨hfw, hft⟩ := DelayedWork.freed_of_freeWork hfree
    exact hupdate (hft.trans (ht _)) hfw
  | context => exact ⟨ht, hw, hc, rfl⟩

/-- What the cleanup has freed, and what is left of the contexts that are done with. -/
structure GoneInvariant (s : System) : Prop where
  past : ∀ pc c o, s.cleanupWork.running = some pc → pc.context = some c →
    s.objects c.id = some o → pc.Past o
  gone : ∀ k o, s.objects k = some o → s.association.Live o.context ∨ o.Gone

/-- The cleanup has freed what stands before its position, also after a step. -/
theorem GoneInvariant.past_step (h : GoneInvariant s) (hr : Reachable ownAddress s)
    {action : Action} (he : Effect s action s') {pc' : CleanupPc} {c : AssociationContext}
    {o' : ContextObjects} (hrun : s'.cleanupWork.running = some pc') (hpc : pc'.context = some c)
    (ho' : s'.objects c.id = some o') : pc'.Past o' := by
  have hsame : s.cleanupWork.running = some pc' → pc'.Past o' := by
    intro hw
    cases he.objectsAfter ho' with
    | allocated hid hk ho hn =>
      obtain ⟨o, ho, -⟩ := hr.contexts.cleanup c (hr.cleanup.context pc' c hw hpc)
      have hlt := (hr.contexts.id _ _ ho).2
      omega
    | used ho hl => exact (hl.past_iff pc').mpr (h.past pc' c _ hw hpc ho)
    | freed hact hid ho hw₁ hd hr₁ =>
      -- a line that frees something moves the cleanup on
      rw [hw, Option.some.injEq] at hw₁
      rw [hrun, Option.some.injEq] at hr₁
      subst hw₁
      subst hr₁
      cases hd
  cases he with
  | process hc hs => exact hsame (by simpa using hrun)
  | timeout ho hw hs => exact hsame (by simpa using hrun)
  | enqueueCleanup hc => exact hsame (by simpa using hrun)
  | timeoutEnqueue ho hw => exact hsame (by simpa using hrun)
  | startCleanup hw =>
    obtain ⟨-, -, -, rfl⟩ := Work.start_eq_some hw
    cases hrun
    trivial
  | cleanupFirst hw =>
    cases hrun
    cases s.association.associationCleanupContext <;> trivial
  | cleanupRelease hw => cases hrun; trivial
  | @cleanupDestroy context _ _ _ ob ob' hw ho hd =>
    cases hrun
    have hcx := hd.context_eq
    rw [hpc, Option.some.injEq] at hcx
    obtain ⟨hctx, rfl⟩ := hcx
    rw [objects_setObjects_self, Option.some.injEq] at ho'
    exact ho' ▸ hd.past (h.past _ _ _ hw hctx ho)
  | @cleanupReleaseDisconnected context disconnected hw =>
    cases context with
    | none => cases hrun
    | some c' =>
      cases hrun
      have hpast := h.past _ c o' hw hpc ho'
      exact hpast
  | cleanupSecond hw => cases hrun
  | _ => exact hsame hrun

/-- A context that is not live any more is gone, also after a step. -/
theorem GoneInvariant.gone_step (h : GoneInvariant s) (hr : Reachable ownAddress s)
    {action : Action} (he : Effect s action s') {k : Nat} {o' : ContextObjects}
    (ho' : s'.objects k = some o') : s'.association.Live o'.context ∨ o'.Gone := by
  have hlive := fun {o : ContextObjects} => he.live (c := o.context) hr.consistent hr.cleanup
  -- a context that is neither current nor waits any longer is one that the cleanup has gone through
  have hold : ∀ {o : ContextObjects}, s.objects k = some o → o'.context = o.context →
      (o.Gone → o'.Gone) → s'.association.Live o'.context ∨ o'.Gone := by
    intro o ho hctx hkeep
    rcases h.gone k o ho with hl | hg
    · rcases hlive hl with hl' | ⟨hw, -⟩
      · exact Or.inl (hctx ▸ hl')
      · have hid := (hr.contexts.id k o ho).1
        exact Or.inr (hkeep (h.past _ _ o hw rfl (by rw [hid, ho])))
    · exact Or.inr (hkeep hg)
  cases hobj : he.objectsAfter ho' with
  | used ho hl => exact hold ho hl.context hl.gone_iff.mpr
  | freed hact hid ho hw hd hr' => exact hold ho hd.sameContext hd.gone
  | allocated hid hk ho hn =>
    cases he with
    | install hcall hp hs hid' hg =>
      rcases objects_setObjects ho' with ⟨-, rfl⟩ | hold'
      · exact Or.inl (Or.inl rfl)
      · have hlt := (hr.contexts.id _ _ hold').2
        omega
    | process hc hs => simp at hn
    | timeout ho hw hs => simp at hn
    | _ => exact absurd hn (by simp)

/-- A context is the current one, waits for its cleanup, or has been freed entirely. -/
theorem Reachable.gone (h : Reachable ownAddress s) : GoneInvariant s := by
  refine Lts.Reachable.invariant (P := GoneInvariant)
    ⟨fun _ _ _ hw => (by cases hw), fun _ _ ho => (by cases ho)⟩ ?_ h
  intro s action s' hr ih hs
  have hreach : Reachable ownAddress s := hr
  have he := hreach.effect hs
  exact ⟨fun _ _ _ => ih.past_step hreach he, fun _ _ => ih.gone_step hreach he⟩

/-! ## What is on its way -/

/-- The cleanup has been asked for and has not looked for an access point to release yet, or a
frame or a timeout is about to ask for it. -/
def ReleaseDue (s : System) : Prop :=
  (s.cleanupWork.request = .queued ∨ s.cleanupWork.running = some .first) ∨
    .enqueueCleanup ∈ s.calls ∨ ∃ k o, s.objects k = some o ∧ o.EnqueuesCleanup

/-- The release of a disconnected access point stays on its way. -/
theorem ReleaseDue.effect (h : ReleaseDue s) (hr : Reachable ownAddress s) {action : Action}
    (he : Effect s action s') (hd : s'.association.disconnectedAp ≠ none) : ReleaseDue s' := by
  have henqueue : s'.cleanupWork = s.cleanupWork.enqueue → ReleaseDue s' :=
    fun hw => Or.inl (Or.inl (by rw [hw]; exact hr.cleanup.enqueue_queued))
  rcases h with h | h | ⟨k, o, ho, hq⟩
  · -- a callback that is past its first position has been asked for again
    have hgoto : ∀ {pc : CleanupPc} {next : Option CleanupPc},
        s.cleanupWork.running = some pc → pc ≠ .first →
          s'.cleanupWork = s.cleanupWork.goto next → ReleaseDue s' := by
      intro pc next hw hne hs'
      refine Or.inl (Or.inl ?_)
      rw [hs']
      refine h.resolve_right ?_
      rw [hw, Option.some.injEq]
      exact hne
    cases he with
    | process hcall hs => simpa [ReleaseDue] using Or.inl h
    | timeout ho hw hs => simpa [ReleaseDue] using Or.inl h
    | enqueueCleanup hcall => exact henqueue rfl
    | timeoutEnqueue ho hw => exact henqueue rfl
    | startCleanup hw =>
      obtain ⟨-, -, -, rfl⟩ := Work.start_eq_some hw
      exact Or.inl (Or.inr rfl)
    | cleanupFirst hw => exact absurd rfl hd
    | cleanupRelease hw => exact hgoto hw nofun rfl
    | cleanupDestroy hw ho hd => exact hgoto hw (by rintro rfl; cases hd) rfl
    | cleanupReleaseDisconnected hw => exact hgoto hw nofun rfl
    | cleanupSecond hw => exact hgoto hw nofun rfl
    | _ => exact Or.inl h
  · rcases he.enqueueCleanup_mem h with h | h
    · exact Or.inr (Or.inl h)
    · exact henqueue h
  · obtain ⟨o', ho', -⟩ := he.objects_persist (hr.contexts.id k o ho).2 ho
    rcases (he.objectStep (hr.contexts.id k o ho).2 ho ho').enqueuesCleanup hq with h | h
    · exact Or.inr (Or.inr ⟨k, o', ho', h⟩)
    · exact henqueue h

/-- The step that leaves an access point to release is about to queue the cleanup. -/
theorem Effect.disconnected_cases {action : Action} (he : Effect s action s')
    (hd : s'.association.disconnectedAp ≠ none) :
    s.association.disconnectedAp ≠ none ∨ ReleaseDue s' := by
  cases he with
  | @process i o frame message r hcall hs =>
    have hlt := (List.getElem?_eq_some_iff.mp hcall).1
    cases hs with
    | disconnected hst ha hdis =>
      refine Or.inr (Or.inr (Or.inl (List.mem_of_getElem? (i := i) ?_)))
      exact List.getElem?_set_self hlt
    | _ => exact Or.inl hd
  | @timeout k kind ob r ho hw hs =>
    cases hs with
    | disconnected hst ha hdis => cases hdis
    | _ => exact Or.inl hd
  | takeDisconnected | cleanupFirst => exact absurd rfl hd
  | _ => exact Or.inl hd

/-- While an access point waits to be released, the cleanup is on its way. -/
theorem Reachable.disconnectedDue (h : Reachable ownAddress s) :
    s.association.disconnectedAp ≠ none → ReleaseDue s := by
  refine Lts.Reachable.invariant (P := fun s => s.association.disconnectedAp ≠ none →
    ReleaseDue s) (fun hd => absurd rfl hd) ?_ h
  intro s action s' hr ih hs hd
  have hreach : Reachable ownAddress s := hr
  have he := hreach.effect hs
  rcases he.disconnected_cases hd with hold | hdue
  · exact (ih hold).effect hreach he hd
  · exact hdue

/-- The call is in `u80211_deauthenticate`, between its two sections. -/
def Call.Deauthenticates : Call → Prop
  | .deauthenticateSend _ _ | .deauthenticateSecond _ => True
  | _ => False

/-- A call that has a property is still there when the one replaced keeps it. -/
theorem exists_mem_set {P : Call → Prop} {calls : List Call} {i : Nat} {old new : Call}
    (hi : calls[i]? = some old) (h : ∃ c ∈ calls, P c) (hn : P old → P new) :
    ∃ c ∈ calls.set i new, P c := by
  obtain ⟨c, hm, hc⟩ := h
  obtain ⟨j, hj⟩ := List.getElem?_of_mem hm
  by_cases hji : i = j
  · subst hji
    rw [hi, Option.some.injEq] at hj
    subst hj
    have hlt := (List.getElem?_eq_some_iff.mp hi).1
    exact ⟨new, List.mem_of_getElem? (List.getElem?_set_self hlt), hn hc⟩
  · exact ⟨c, List.mem_of_getElem? (by rw [List.getElem?_set_ne hji, hj]), hc⟩

/-- The second section of a call finds the device as the first one has left it. -/
theorem step_deauthenticateSecond (hc : s.association.Consistent) {i : Nat} {o : Outcome}
    {status : Status} (hcall : s.calls[i]? = some (.deauthenticateSecond status))
    (hst : s.association.state = .deauthenticating) (hs : step (.advance i o) s = some s') :
    s'.association.state = .down := by
  obtain ⟨ap, hap⟩ := Option.isSome_iff_exists.mp (hc.ap_connected (Or.inr hst))
  rcases deauthenticateSecond_cases s.association with ⟨ap', -, -, he⟩ | ⟨hn, -⟩
  · simp only [step, hcall, stepCall, he, Option.some.injEq] at hs
    rw [← hs]
    rfl
  · rw [hn hst] at hap
    cases hap

/-- A device that leaves its access point has a call that does so. -/
theorem Effect.deauthenticating_persist (hc : s.association.Consistent) {action : Action}
    (he : Effect s action s') (hs : step action s = some s')
    (hst : s.association.state = .deauthenticating)
    (hst' : s'.association.state = .deauthenticating)
    (h : ∃ c ∈ s.calls, c.Deauthenticates) : ∃ c ∈ s'.calls, c.Deauthenticates := by
  cases he with
  | invoke =>
    obtain ⟨c, hm, hd⟩ := h
    exact ⟨c, List.mem_append_left _ hm, hd⟩
  | quiet hcall hq =>
    refine exists_mem_set hcall h fun hd => ?_
    cases hq with
    | deauthenticationSent => trivial
    | deauthenticated =>
      rw [step_deauthenticateSecond hc hcall hst hs] at hst'
      cases hst'
    | _ => exact hd.elim
  | process hcall hr =>
    rw [System.setCall_calls, applySection_calls]
    exact exists_mem_set hcall h False.elim
  | timeout ho hw hr =>
    rw [System.setObjects_calls, applySection_calls]
    exact h
  | deauthenticateSecond hcall => cases hst'
  | cleanupSecond hw =>
    obtain ⟨c, hm, hd⟩ := h
    exact ⟨c, mem_wake_of_mem (by rintro n r rfl; exact hd) hm, hd⟩
  | takeDisconnected hcall | releaseTaken hcall | install hcall | arm hcall
  | deauthenticateFirst hcall | deauthenticateRelease hcall | answer hcall | wait hcall
  | woken hcall | receive hcall | filter hcall | enqueueCleanup hcall =>
    exact exists_mem_set hcall h False.elim
  | _ => exact h

/-- A device that is deauthenticating has a call that goes on doing so. -/
theorem Reachable.deauthenticating (h : Reachable ownAddress s) :
    s.association.state = .deauthenticating → ∃ c ∈ s.calls, c.Deauthenticates := by
  refine Lts.Reachable.invariant (P := fun s => s.association.state = .deauthenticating →
    ∃ c ∈ s.calls, c.Deauthenticates) (fun hst => by cases hst) ?_ h
  intro s action s' hr ih hs hst'
  have hreach : Reachable ownAddress s := hr
  have he := hreach.effect hs
  by_cases hst : s.association.state = .deauthenticating
  · exact he.deauthenticating_persist hreach.consistent hs hst hst' (ih hst)
  -- the first section of a call is the only step into the state
  cases he with
  | deauthenticateFirst hcall =>
    have hlt := (List.getElem?_eq_some_iff.mp hcall).1
    exact ⟨_, List.mem_of_getElem? (List.getElem?_set_self hlt), trivial⟩
  | process hcall hs' =>
    cases hs' with
    | @ended c result hcx he =>
      have hend : (s.association.endAttempt c result).state = .deauthenticating := hst'
      rw [Association.endAttempt_state] at hend
      split at hend <;> cases hend
    | unchanged => exact absurd hst' hst
    | authenticated | disconnected => cases hst'
  | timeout ho hw hs' =>
    cases hs' with
    | @ended c result hcx he =>
      have hend : (s.association.endAttempt c result).state = .deauthenticating := hst'
      rw [Association.endAttempt_state] at hend
      split at hend <;> cases hend
    | unchanged => exact absurd hst' hst
    | authenticated | disconnected => cases hst'
  | install | deauthenticateSecond | scanBegin | scanEnd => cases hst'
  | _ => exact absurd hst' hst

/-- A call that waits and has not been signalled is in the list. -/
theorem Reachable.mem_waiters (h : Reachable ownAddress s) :
    ∀ i r, s.calls[i]? = some (.waiting 0 r) → i ∈ s.association.associationWaiters := by
  refine Lts.Reachable.invariant (P := fun s => ∀ i r, s.calls[i]? = some (.waiting 0 r) →
    i ∈ s.association.associationWaiters) (fun i r hc => by cases hc) ?_ h
  intro s action s' hr ih hs i r hc
  have hreach : Reachable ownAddress s := hr
  cases (hreach.effect hs).waiterStep with
  | other hw hwait hret =>
    rw [hw]
    exact ih i r ((hwait i 0 r).mp hc)
  | @wait j hcall hw hcalls hlive =>
    rw [hw]
    by_cases hji : j = i
    · simp [hji]
    · rw [hcalls, List.getElem?_set_ne hji] at hc
      exact List.mem_append_left _ (ih i r hc)
  | @woken j n r' hcall hn hw hcalls =>
    have hlt := (List.getElem?_eq_some_iff.mp hcall).1
    have hji : j ≠ i := by
      rintro rfl
      rw [hcalls, List.getElem?_set_self hlt] at hc
      cases hc
    rw [hcalls, List.getElem?_set_ne hji] at hc
    exact hw ▸ ih i r hc
  | wake hrun hw hcalls =>
    have hwaiters := hreach.waiters
    rw [hcalls, wake_getElem? _ hwaiters.nodup hwaiters.waiting] at hc
    split at hc
    · cases hc
    · next hnot => exact absurd (ih i r hc) hnot

/-! ## When nothing can go on -/

/-- A call that takes no further step has come to its end, or waits to be signalled. -/
theorem stepCall_stopped (hr : Reachable ownAddress s) {i : Nat} {c : Call}
    (hc : s.calls[i]? = some c) (hn : stepCall s i {} c = none) :
    (∃ r, c = .waiting 0 r) ∨ c = .handled ∨ ∃ r, c = .returned r := by
  cases c with
  | associateEnter ap ies =>
    simp only [stepCall] at hn
    split at hn <;> cases hn
  | associateCritical ap ies =>
    simp only [stepCall] at hn
    split at hn <;> cases hn
  | associateArm context =>
    obtain ⟨o, ho, -⟩ := hr.contexts.call _ (List.mem_of_getElem? hc) context rfl
    simp [stepCall, stepObjects, ho] at hn
  | deauthenticateFirst reason =>
    simp only [stepCall] at hn
    split at hn <;> cases hn
  | deauthenticateSecond status =>
    simp only [stepCall] at hn
    split at hn <;> cases hn
  | waitCritical =>
    simp only [stepCall] at hn
    split at hn <;> cases hn
  | waiting semaphore result =>
    simp only [stepCall] at hn
    split at hn
    · next hz => exact Or.inl ⟨result, by rw [hz]⟩
    · cases hn
  | receive frame =>
    obtain ⟨plan, hp⟩ := processManagementPacket_isSome s.ownAddress frame.header frame.data
    simp [stepCall, hp] at hn
  | returned status => exact Or.inr (Or.inr ⟨status, rfl⟩)
  | handled => exact Or.inr (Or.inl rfl)
  | _ => simp [stepCall] at hn

/-- The cleanup waits for nothing but a callback of the context that it frees. -/
theorem stepCleanup_isSome (hr : Reachable ownAddress s) {pc : CleanupPc}
    (hw : s.cleanupWork.running = some pc)
    (hidle : ∀ k o, s.objects k = some o → o.completionWork.running = none ∧
      ∀ kind, (o.timeoutWork kind).work.running = none) : ∃ s', stepCleanup s pc = some s' := by
  have hobjects : ∀ c, pc.context = some c → ∃ o, s.objects c.id = some o := by
    intro c hc
    obtain ⟨o, ho, -⟩ := hr.contexts.cleanup c (hr.cleanup.context pc c hw hc)
    exact ⟨o, ho⟩
  have hfree : ∀ {k : Nat} {o : ContextObjects}, s.objects k = some o → ∀ kind : TimeoutKind,
      ∃ w, (o.timeoutWork kind).freeWork = some w := by
    intro k o ho kind
    simp [DelayedWork.freeWork, Work.free, (hidle k o ho).2 kind]
  cases pc with
  | freeAuthTimer c d | freeAssocTimer c d | freeContext c d =>
    obtain ⟨o, ho⟩ := hobjects c rfl
    simp [stepCleanup, stepDestroy, stepObjects, ho, ContextObjects.freeTimer]
  | freeCompletionWork c d =>
    obtain ⟨o, ho⟩ := hobjects c rfl
    simp [stepCleanup, stepDestroy, stepObjects, ho, ContextObjects.freeCompletionWork, Work.free,
      (hidle _ o ho).1]
  | freeAuthTimeoutWork c d | freeAssocTimeoutWork c d =>
    obtain ⟨o, ho⟩ := hobjects c rfl
    simpa [stepCleanup, stepDestroy, stepObjects, ho, ContextObjects.freeTimeoutWork] using
      hfree ho _
  | _ => simp [stepCleanup]

/-- Nothing is going on and nothing is to come: every call has come to its end, no timer runs and
no callback is to run, and the contexts that have been allocated have been freed. -/
structure System.AtRest (s : System) : Prop where
  calls : ∀ c ∈ s.calls, c = .handled ∨ ∃ r, c = .returned r
  state : s.association.state = .down ∨ s.association.state = .scanning ∨
    s.association.state = .associated
  context : s.association.associationContext = none
  cleanupPending : s.association.associationCleanupPending = false
  waiters : s.association.associationWaiters = []
  disconnectedAp : s.association.disconnectedAp = none
  cleanupWork : s.cleanupWork.request = .idle ∧ s.cleanupWork.running = none
  completionWork : ∀ k o, s.objects k = some o →
    o.completionWork.request = .idle ∧ o.completionWork.running = none
  timeoutWork : ∀ k o, s.objects k = some o → ∀ kind,
    (o.timeoutWork kind).work.request = .idle ∧ (o.timeoutWork kind).work.running = none
  gone : ∀ k o, s.objects k = some o → o.Gone

section Halted

variable (hr : Reachable ownAddress s) (hh : Lts.Halted step Action.Internal s)

include hr hh

/-- At rest no timeout is armed or runs. -/
theorem timeoutWork_of_halted {k : Nat} {o : ContextObjects} (ho : s.objects k = some o)
    (kind : TimeoutKind) :
    (o.timeoutWork kind).work.request = .idle ∧ (o.timeoutWork kind).work.running = none := by
  have hrun : (o.timeoutWork kind).work.running = none := by
    have hn := hh (.advanceTimeout k kind) trivial
    simpa [step, stepObjects, ho] using hn
  have hexpire := hh (.expire k kind) trivial
  have hstart := hh (.startTimeout k kind) trivial
  simp only [step, stepObjects, ho, Option.map_eq_none_iff] at hexpire hstart
  exact ⟨DelayedWork.idle_of_halted (hr.sound k o ho kind) hexpire hstart hrun, hrun⟩

/-- At rest no completion runs or is to run. -/
theorem completionWork_of_halted {k : Nat} {o : ContextObjects} (ho : s.objects k = some o) :
    o.completionWork.request = .idle ∧ o.completionWork.running = none := by
  have hrun : o.completionWork.running = none := by
    have hn := hh (.advanceCompletion k) trivial
    simpa [step, stepObjects, ho] using hn
  have hstart := hh (.startCompletion k) trivial
  simp only [step, stepObjects, ho, Option.map_eq_none_iff] at hstart
  have hok := hr.contexts.completion k o ho
  have hsound : o.completionWork.Sound := hok.freed
  exact ⟨hok.request.resolve_right (hsound.ne_queued hstart hrun), hrun⟩

/-- At rest no cleanup runs or is to run. -/
theorem cleanupWork_of_halted : s.cleanupWork.request = .idle ∧ s.cleanupWork.running = none := by
  have hrun : s.cleanupWork.running = none := by
    cases hw : s.cleanupWork.running with
    | none => rfl
    | some pc =>
      obtain ⟨s', hs'⟩ := stepCleanup_isSome hr hw fun k o ho =>
        ⟨(completionWork_of_halted hr hh ho).2, fun kind => (timeoutWork_of_halted hr hh ho kind).2⟩
      have hn := hh .advanceCleanup trivial
      simp [step, hw, hs'] at hn
  have hstart := hh .startCleanup trivial
  simp only [step, Option.map_eq_none_iff] at hstart
  refine ⟨hr.cleanup.request.resolve_right fun hq => ?_, hrun⟩
  rw [Work.start, if_pos ⟨hq, hrun, hr.cleanup.freed⟩] at hstart
  cases hstart

/-- At rest every call waits for its attempt, or is done. -/
theorem call_of_halted {i : Nat} {c : Call} (hc : s.calls[i]? = some c) :
    (∃ r, c = .waiting 0 r) ∨ c = .handled ∨ ∃ r, c = .returned r := by
  have hn := hh (.advance i {}) trivial
  simp only [step, hc] at hn
  exact stepCall_stopped hr hc hn

/-- A call that is not at its end waits to be signalled. -/
theorem not_mem_of_halted {c : Call} (hw : ∀ r, c ≠ .waiting 0 r) (hh' : c ≠ .handled)
    (hr' : ∀ r, c ≠ .returned r) : c ∉ s.calls := by
  intro hm
  obtain ⟨i, hi⟩ := List.getElem?_of_mem hm
  rcases call_of_halted hr hh hi with ⟨r, h⟩ | h | ⟨r, h⟩
  · exact hw r h
  · exact hh' h
  · exact hr' r h

theorem not_enqueuesCleanup_of_halted : .enqueueCleanup ∉ s.calls ∧
    ¬ ∃ k o, s.objects k = some o ∧ o.EnqueuesCleanup := by
  refine ⟨not_mem_of_halted hr hh nofun nofun nofun, ?_⟩
  rintro ⟨k, o, ho, kind, hw⟩
  rw [(timeoutWork_of_halted hr hh ho kind).2] at hw
  cases hw

/-- At rest no cleanup is pending. -/
theorem pending_of_halted : s.association.associationCleanupPending = false := by
  rw [← Bool.not_eq_true]
  intro hp
  obtain ⟨hq, hrun⟩ := cleanupWork_of_halted hr hh
  obtain ⟨hcalls, hobjects⟩ := not_enqueuesCleanup_of_halted hr hh
  rcases hr.cleanupDue hp with (h | ⟨pc, h, -⟩) | h | h
  · rw [hq] at h
    cases h
  · rw [hrun] at h
    cases h
  · exact hcalls h
  · exact hobjects h

/-- At rest no access point waits for its release. -/
theorem disconnectedAp_of_halted : s.association.disconnectedAp = none := by
  by_contra hd
  obtain ⟨hq, hrun⟩ := cleanupWork_of_halted hr hh
  obtain ⟨hcalls, hobjects⟩ := not_enqueuesCleanup_of_halted hr hh
  rcases hr.disconnectedDue hd with (h | h) | h | h
  · rw [hq] at h
    cases h
  · rw [hrun] at h
    cases h
  · exact hcalls h
  · exact hobjects h

/-- An attempt that is pursued is not at its end. -/
theorem context_of_halted : s.association.associationContext = none := by
  cases hcx : s.association.associationContext with
  | none => rfl
  | some c =>
    exfalso
    obtain ⟨o, ho, -⟩ := hr.contexts.current c hcx
    obtain ⟨hauth, hassoc⟩ := hr.pursued c o hcx ho
    have hdue : ∀ kind, ¬ Due (o.timeoutWork kind) := by
      intro kind hd
      obtain ⟨hq, hrun⟩ := timeoutWork_of_halted hr hh ho kind
      rcases hd with hd | hd
      · exact hd hq
      · rw [hrun] at hd
        cases hd
    have hprog := hr.consistent.inProgress_of_context hcx
    cases hst : s.association.state with
    | authenticating =>
      rcases hauth hst with ⟨call, hm, hcall⟩ | hd
      · exact not_mem_of_halted hr hh (by rintro r rfl; cases hcall) (by rintro rfl; cases hcall)
          (by rintro r rfl; cases hcall) hm
      · exact hdue .auth hd
    | associating =>
      obtain ⟨hq, hrun⟩ := completionWork_of_halted hr hh ho
      rcases hassoc hst with h | h | h
      · rw [hq] at h
        cases h
      · exact h hrun
      · exact hdue .assoc h
    | _ =>
      rw [hst] at hprog
      cases hprog

/-- **When nothing can go on, everything is done.** -/
theorem atRest_of_halted : s.AtRest := by
  have hcx := context_of_halted hr hh
  have hpending := pending_of_halted hr hh
  have hlive : ∀ c, ¬ s.association.Live c := by
    rintro c (h | h)
    · rw [hcx] at h
      cases h
    · rw [hr.consistent.pending_iff.mpr (by rw [h]; rfl)] at hpending
      cases hpending
  have hwaiters : s.association.associationWaiters = [] := by
    by_contra hne
    obtain ⟨c, hc⟩ := hr.waiters.live hne
    exact hlive c hc
  refine ⟨?_, ?_, hcx, hpending, hwaiters, disconnectedAp_of_halted hr hh,
    cleanupWork_of_halted hr hh, fun k o => completionWork_of_halted hr hh,
    fun k o => timeoutWork_of_halted hr hh, ?_⟩
  · intro c hm
    obtain ⟨i, hi⟩ := List.getElem?_of_mem hm
    refine (call_of_halted hr hh hi).resolve_left ?_
    rintro ⟨r, rfl⟩
    have hmem := hr.mem_waiters i r hi
    rw [hwaiters] at hmem
    cases hmem
  · cases hst : s.association.state with
    | down => exact Or.inl rfl
    | scanning => exact Or.inr (Or.inl rfl)
    | associated => exact Or.inr (Or.inr rfl)
    | deauthenticating =>
      obtain ⟨c, hm, hd⟩ := hr.deauthenticating hst
      exact absurd hm (not_mem_of_halted hr hh (by rintro r rfl; exact hd) (by rintro rfl; exact hd)
        (by rintro r rfl; exact hd))
    | authenticating =>
      obtain ⟨c, hc⟩ := hr.consistent.context_of_inProgress (by rw [hst]; rfl)
      rw [hcx] at hc
      cases hc
    | associating =>
      obtain ⟨c, hc⟩ := hr.consistent.context_of_inProgress (by rw [hst]; rfl)
      rw [hcx] at hc
      cases hc
  · intro k o ho
    exact (hr.gone.gone k o ho).resolve_left (hlive _)

end Halted

/-- Who is at rest does nothing by itself. -/
theorem System.AtRest.halted (h : s.AtRest) : Lts.Halted step Action.Internal s := by
  intro action ha
  cases action with
  | invoke | scanBegin | scanEnd => exact ha.elim
  | advance i o =>
    simp only [step]
    split
    · rfl
    · next c hc =>
      rcases h.calls c (List.mem_of_getElem? hc) with rfl | ⟨r, rfl⟩ <;> rfl
  | startCleanup => simp [step, Work.start, h.cleanupWork.1]
  | advanceCleanup => simp [step, h.cleanupWork.2]
  | expire k kind | startTimeout k kind | advanceTimeout k kind =>
    simp only [step, stepObjects]
    split
    · rfl
    · next o ho =>
      obtain ⟨hq, hr⟩ := h.timeoutWork k o ho kind
      simp [DelayedWork.expire, DelayedWork.start, Work.start, hq, hr]
  | startCompletion k | advanceCompletion k =>
    simp only [step, stepObjects]
    split
    · rfl
    · next o ho =>
      obtain ⟨hq, hr⟩ := h.completionWork k o ho
      simp [Work.start, hq, hr]

end U80211
